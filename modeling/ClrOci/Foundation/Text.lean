import Mathlib.Data.List.Basic

/-! Zero-terminated text, fixed-size buffers and slash-separated paths.

A string stands for the bytes of a C string, one character for each byte. The
terminator is not part of it, so a buffer of `n + 1` bytes has capacity `n`.
-/

set_option autoImplicit false

namespace ClrOci.Foundation

structure Buffer (capacity : Nat) where
  text : String
  fits : text.length ≤ capacity
  deriving DecidableEq

namespace Buffer
variable {capacity : Nat}

/-- Copy as much of the source as fits: `g_strlcpy`, and `g_snprintf` of `%s`. -/
def copy (capacity : Nat) (source : String) : Buffer capacity where
  text := String.ofList (source.toList.take capacity)
  fits := by
    rw [String.length_ofList]
    exact List.length_take_le capacity source.toList

instance : Inhabited (Buffer capacity) := ⟨copy capacity ""⟩

def empty : Buffer capacity := copy capacity ""

def isSet (buffer : Buffer capacity) : Bool := buffer.text != ""

@[ext] theorem ext {first second : Buffer capacity} (same : first.text = second.text) :
    first = second := by
  cases first
  cases second
  cases same
  rfl

theorem copy_text_of_fits {source : String} (fits : source.length ≤ capacity) :
    (copy capacity source).text = source := by
  rw [← String.length_toList] at fits
  simp only [copy, List.take_of_length_le fits, String.ofList_toList]

theorem length_copy {source : String} : (copy capacity source).text.length = min capacity source.length := by
  rw [copy, String.length_ofList, List.length_take, String.length_toList]

theorem copy_text_eq_iff {source : String} :
    (copy capacity source).text = source ↔ source.length ≤ capacity := by
  constructor
  · intro whole
    rw [← whole]
    exact (copy capacity source).fits
  · exact copy_text_of_fits

theorem copy_append_eq_iff {front first second : String} :
    copy capacity (front ++ first) = copy capacity (front ++ second) ↔
      first.toList.take (capacity - front.length) = second.toList.take (capacity - front.length) := by
  have taken (text : String) : (front ++ text).toList.take capacity =
      front.toList.take capacity ++ text.toList.take (capacity - front.length) := by
    rw [String.toList_append, List.take_append, String.length_toList]
  constructor
  · intro same
    have texts := congrArg (fun buffer => buffer.text.toList) same
    simp only [copy, String.toList_ofList, taken] at texts
    exact List.append_cancel_left texts
  · intro same
    apply ext
    simp only [copy, taken, same]

@[simp] theorem copy_text (buffer : Buffer capacity) : copy capacity buffer.text = buffer :=
  ext (copy_text_of_fits buffer.fits)

@[simp] theorem empty_text : (empty : Buffer capacity).text = "" :=
  copy_text_of_fits (by simp)

end Buffer

/-- Whether a string starts with the separator: `text[0] == '/'`. -/
def isAbsolute (path : String) : Bool := path.toList.head? == some '/'

/-- `g_path_get_dirname`. -/
def dirname (path : String) : String :=
  match path.toList.reverse.dropWhile (· != '/') with
  | [] => "."
  | stem =>
    match stem.dropWhile (· == '/') with
    | [] => "/"
    | parent => String.ofList parent.reverse

/-- `g_path_get_basename`. -/
def basename (path : String) : String :=
  if path = "" then "."
  else
    match path.toList.reverse.dropWhile (· == '/') with
    | [] => "/"
    | stem => String.ofList (stem.takeWhile (· != '/')).reverse

theorem length_dirname (path : String) : (dirname path).toList.length ≤ max 1 (path.toList.length - 1) := by
  have stem := (List.dropWhile_suffix (· != '/') (l := path.toList.reverse)).length_le
  have first := List.head?_dropWhile_not (· != '/') path.toList.reverse
  rw [List.length_reverse] at stem
  unfold dirname
  generalize path.toList.reverse.dropWhile (· != '/') = found at stem first ⊢
  cases found with
  | nil => exact Nat.le_max_left 1 _
  | cons slash rest =>
    have separator : (slash == '/') = true := by simpa using first
    have dropped : (slash :: rest).dropWhile (· == '/') = rest.dropWhile (· == '/') :=
      List.dropWhile_cons_of_pos separator
    have shorter := (List.dropWhile_suffix (· == '/') (l := rest)).length_le
    rw [List.length_cons] at stem
    dsimp only
    rw [dropped]
    split
    · exact Nat.le_max_left 1 _
    · rw [String.toList_ofList, List.length_reverse]
      omega

theorem length_dirname_lt {path : String} (long : 1 < path.toList.length) :
    (dirname path).toList.length < path.toList.length := by
  have short := length_dirname path
  omega

theorem length_dirname_le {path : String} (set : path ≠ "") :
    (dirname path).toList.length ≤ path.toList.length := by
  have some : 0 < path.toList.length := List.length_pos_of_ne_nil (by simpa using set)
  have short := length_dirname path
  omega

def trimSeparators (element : List Char) : List Char :=
  ((element.dropWhile (· == '/')).reverse.dropWhile (· == '/')).reverse

/-- `g_build_path` with the separator `/`: one separator at each join, those that
lead the first element and trail the last one kept. -/
def buildPath (elements : List String) : String :=
  match (elements.map String.toList).filter (· != []) with
  | [] => ""
  | [element] => String.ofList element
  | element :: rest =>
    let leading := element.takeWhile (· == '/')
    let trailing := ((rest.getLastD []).reverse.takeWhile (· == '/'))
    let cores := ((element :: rest).map trimSeparators).filter (· != [])
    String.ofList (leading ++ List.intercalate ['/'] cores ++ trailing)

/-- Text before the first occurrence of a pattern and the text from it on: `strstr`. -/
def findFirst (pattern : List Char) : List Char → Option (List Char × List Char)
  | [] => if pattern = [] then some ([], []) else none
  | c :: rest =>
    if pattern.isPrefixOf (c :: rest) then some ([], c :: rest)
    else (findFirst pattern rest).map fun found => (c :: found.1, found.2)

/-- Cut at a one-character delimiter, into at most `limit` pieces when it is given. -/
def splitAt (delimiter : Char) : Option Nat → List Char → List Char → List (List Char)
  | _, piece, [] => [piece.reverse]
  | some 1, piece, c :: rest => [piece.reverse ++ c :: rest]
  | limit, piece, c :: rest =>
    if c = delimiter then piece.reverse :: splitAt delimiter (limit.map (· - 1)) [] rest
    else splitAt delimiter limit (c :: piece) rest

/-- `g_strsplit` at a one-character delimiter; the empty string has no pieces. -/
def strsplit (text : String) (delimiter : Char) (limit : Option Nat) : List String :=
  if text = "" then [] else (splitAt delimiter limit [] text.toList).map String.ofList

/-- `g_strjoinv`. -/
def strjoin (separator : String) (pieces : List String) : String :=
  String.intercalate separator pieces

theorem strjoin_cons_of_ne_nil {separator piece : String} {pieces : List String} (more : pieces ≠ []) :
    strjoin separator (piece :: pieces) = piece ++ separator ++ strjoin separator pieces :=
  String.intercalate_cons_of_ne_nil more

theorem not_mem_strjoin {c : Char} {separator : String} {pieces : List String}
    (apart : c ∉ separator.toList) (each : ∀ piece ∈ pieces, c ∉ piece.toList) :
    c ∉ (strjoin separator pieces).toList := by
  induction pieces with
  | nil => simp [strjoin]
  | cons piece pieces ih =>
    obtain ⟨here, later⟩ := List.forall_mem_cons.mp each
    by_cases last : pieces = []
    · subst last
      simpa [strjoin] using here
    · rw [strjoin_cons_of_ne_nil last]
      simp [here, apart, ih later]

theorem strjoin_visible {separator word : String} {pieces : List String} (member : word ∈ pieces)
    (visible : word ≠ "") : strjoin separator pieces ≠ "" := by
  induction pieces with
  | nil => cases member
  | cons piece pieces ih =>
    by_cases last : pieces = []
    · subst last
      rw [List.mem_singleton.mp member] at visible
      simpa [strjoin] using visible
    · rw [strjoin_cons_of_ne_nil last]
      rcases List.mem_cons.mp member with rfl | later
      · simp [visible]
      · simp [ih later]

section Split
variable {delimiter : Char} {limit : Option Nat} {piece word rest : List Char}

theorem splitAt_word (apart : delimiter ∉ word) (several : limit ≠ some 1) :
    splitAt delimiter limit piece (word ++ delimiter :: rest) =
      (piece.reverse ++ word) :: splitAt delimiter (limit.map (· - 1)) [] rest := by
  induction word generalizing piece with
  | nil => simp [splitAt]
  | cons c word ih =>
    obtain ⟨other, later⟩ := not_or.mp (mt List.mem_cons.mpr apart)
    rw [List.cons_append, splitAt, if_neg (Ne.symm other), ih later, List.reverse_cons,
      List.append_assoc, List.singleton_append]
    exact fun one => absurd one several

theorem splitAt_last_word (apart : delimiter ∉ word) :
    splitAt delimiter limit piece word = [piece.reverse ++ word] := by
  induction word generalizing piece with
  | nil => simp [splitAt]
  | cons c word ih =>
    obtain ⟨other, later⟩ := not_or.mp (mt List.mem_cons.mpr apart)
    by_cases last : limit = some 1
    · rw [last, splitAt]
    · rw [splitAt, if_neg (Ne.symm other), ih later, List.reverse_cons, List.append_assoc,
        List.singleton_append]
      exact fun one => absurd one last

/-- The last piece that a limit leaves is not cut. -/
theorem splitAt_one : splitAt delimiter (some 1) [] rest = [rest] := by
  cases rest <;> simp [splitAt]

theorem splitAt_eq_modifyHead (piece word : List Char) :
    splitAt delimiter none piece word = (word.splitOn delimiter).modifyHead (piece.reverse ++ ·) := by
  induction word generalizing piece with
  | nil => simp [splitAt]
  | cons c word ih =>
    rw [List.splitOn_cons_eq_if_modifyHead]
    by_cases cut : c = delimiter
    · rw [splitAt, if_pos cut, if_pos (beq_iff_eq.mpr cut), Option.map_none, ih]
      · cases word.splitOn delimiter <;> simp
      · exact fun one => by cases one
    · rw [splitAt, if_neg cut, if_neg (mt beq_iff_eq.mp cut), ih]
      · cases word.splitOn delimiter <;> simp
      · exact fun one => by cases one

theorem splitAt_eq_splitOn (word : List Char) : splitAt delimiter none [] word = word.splitOn delimiter := by
  rw [splitAt_eq_modifyHead]
  cases word.splitOn delimiter <;> simp

theorem intercalate_splitAt (word : List Char) :
    [delimiter].intercalate (splitAt delimiter none [] word) = word := by
  rw [splitAt_eq_splitOn, List.intercalate_splitOn]

theorem splitAt_intercalate {words : List (List Char)} (some : words ≠ [])
    (apart : ∀ word ∈ words, delimiter ∉ word) :
    splitAt delimiter none [] ([delimiter].intercalate words) = words := by
  rw [splitAt_eq_splitOn, List.splitOn_intercalate delimiter apart some]

theorem not_mem_of_mem_splitAt {part : List Char} (apart : delimiter ∉ piece)
    (member : part ∈ splitAt delimiter none piece word) : delimiter ∉ part := by
  induction word generalizing piece with
  | nil =>
    rw [splitAt, List.mem_singleton] at member
    simpa [member] using apart
  | cons c word ih =>
    by_cases cut : c = delimiter
    · rw [splitAt, if_pos cut, List.mem_cons] at member
      · rcases member with rfl | later
        · simpa using apart
        · exact ih List.not_mem_nil later
      · exact fun one => by cases one
    · rw [splitAt, if_neg cut] at member
      · exact ih (by simp [apart, Ne.symm cut]) member
      · exact fun one => by cases one

theorem splitAt_ne_nil (word : List Char) : splitAt delimiter none [] word ≠ [] := by
  rw [splitAt_eq_splitOn]
  exact List.splitOn_ne_nil delimiter word

/-- Joined words are read back exactly if there are some and none contains the delimiter. -/
theorem splitAt_intercalate_iff {words : List (List Char)} :
    splitAt delimiter none [] ([delimiter].intercalate words) = words ↔
      words ≠ [] ∧ ∀ word ∈ words, delimiter ∉ word := by
  constructor
  · intro same
    constructor
    · rintro rfl
      exact splitAt_ne_nil _ same
    · intro word member
      rw [← same] at member
      exact not_mem_of_mem_splitAt List.not_mem_nil member
  · rintro ⟨some, apart⟩
    exact splitAt_intercalate some apart

theorem strjoin_eq_empty_iff {separator : String} (visible : separator ≠ "") {words : List String} :
    strjoin separator words = "" ↔ words = [] ∨ words = [""] := by
  cases words with
  | nil => simp [strjoin]
  | cons word words =>
    by_cases last : words = []
    · subst last
      simp [strjoin]
    · rw [strjoin_cons_of_ne_nil last]
      simp [last, visible]

theorem strsplit_strjoin {words : List String} (apart : ∀ word ∈ words, delimiter ∉ word.toList)
    (visible : strjoin (String.singleton delimiter) words ≠ "") :
    strsplit (strjoin (String.singleton delimiter) words) delimiter none = words := by
  have some : words ≠ [] := by
    rintro rfl
    exact visible (by simp [strjoin])
  have pieces : splitAt delimiter none [] (strjoin (String.singleton delimiter) words).toList =
      words.map String.toList := by
    rw [strjoin, String.toList_intercalate, String.toList_singleton]
    apply splitAt_intercalate (by simpa using some)
    simpa using apart
  rw [strsplit, if_neg visible, pieces]
  simp

theorem strsplit_three {first second third : String} (apart : delimiter ∉ first.toList)
    (apart' : delimiter ∉ second.toList) :
    strsplit (first ++ String.singleton delimiter ++ second ++ String.singleton delimiter ++ third)
      delimiter (some 3) = [first, second, third] := by
  have pieces : splitAt delimiter (some 3) []
      (first.toList ++ delimiter :: (second.toList ++ delimiter :: third.toList)) =
        [first.toList, second.toList, third.toList] := by
    rw [splitAt_word apart (by decide), splitAt_word apart' (by decide)]
    simp only [Option.map_some, Nat.reduceSub, splitAt_one, List.reverse_nil, List.nil_append]
  have whole : (first ++ String.singleton delimiter ++ second ++ String.singleton delimiter ++ third).toList =
      first.toList ++ delimiter :: (second.toList ++ delimiter :: third.toList) := by
    simp
  have visible :
      first ++ String.singleton delimiter ++ second ++ String.singleton delimiter ++ third ≠ "" := by
    intro none
    rw [none, String.toList_empty] at whole
    simp at whole
  rw [strsplit, if_neg visible, whole, pieces]
  simp

theorem findFirst_none (apart : delimiter ∉ word) : findFirst [delimiter] word = none := by
  induction word with
  | nil => rfl
  | cons c word ih =>
    obtain ⟨other, later⟩ := not_or.mp (mt List.mem_cons.mpr apart)
    rw [findFirst, if_neg (by simpa using other), ih later, Option.map_none]

theorem findFirst_some (apart : delimiter ∉ word) :
    findFirst [delimiter] (word ++ delimiter :: rest) = some (word, delimiter :: rest) := by
  induction word with
  | nil => simp [findFirst]
  | cons c word ih =>
    obtain ⟨other, later⟩ := not_or.mp (mt List.mem_cons.mpr apart)
    rw [List.cons_append, findFirst, if_neg (by simpa using other), ih later, Option.map_some]

end Split

end ClrOci.Foundation
