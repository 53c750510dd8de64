import ClrOci.Foundation.Printing
import ClrOci.Process

/-! The loop that writes the identifier of a hypervisor, with its array and its indices. -/

set_option autoImplicit false

namespace ClrOci

open Foundation

/-- `UUID_MAX`: the size of both arrays. -/
def uuidMax : Nat := 37

/-- `uuid_str` and `uuid_index`. -/
structure UuidText where
  text : List Char
  index : Nat
  deriving DecidableEq

-- `sizeof(uuid_pattern)-(gulong)uuid_index`, which wraps.
def uuidRoom (index : Nat) : Nat := (UInt64.ofNat uuidMax - UInt64.ofNat index).toNat

def UuidText.append (printed : UuidText) (text : List Char) : Option UuidText :=
  (snprintfAt printed.text printed.index (uuidRoom printed.index) text).map fun stored =>
    ⟨stored.1, printed.index + stored.2⟩

def uuidTurn (printed : UuidText) (byte : UInt8) : Option UuidText := do
  if printed.index < uuidMax then
    let digits ← printed.append (hexByte byte)
    -- The pattern is read where the digits end, its terminator included.
    let mark ← (uuidPattern ++ [nul])[digits.index]?
    if mark = '-' then digits.append ['-'] else return digits
  else return printed

/-- The loop over the sixteen bytes of a `uuid_t`. -/
def uuidLoop (uuid : Vector UInt8 16) : Option UuidText :=
  uuid.toList.foldlM uuidTurn ⟨zeroed uuidMax [], 0⟩

/-- `g_strrstr(uuid_str, "-")+1`, read to its terminator. -/
def uuidNameAt (memory : List Char) : Option (List Char) := do
  let text ← terminated memory
  match text.reverse.dropWhile (· != '-') with
  | [] => none
  | front => terminated (memory.drop front.length)

/-- The canonical text of 32 digits: hyphens behind the 8th, 12th, 16th and 20th. -/
def canonicalUuid (digits : List Char) : List Char :=
  List.intercalate ['-'] [digits.take 8, (digits.drop 8).take 4, (digits.drop 12).take 4,
    (digits.drop 16).take 4, digits.drop 20]

def decodeUuid (text : List Char) : Option (List UInt8) :=
  if text.length = 36 ∧ ∀ place ∈ [8, 13, 18, 23], text[place]? = some '-' then
    decodeHex (text.take 8 ++ (text.drop 9).take 4 ++ (text.drop 14).take 4 ++ (text.drop 19).take 4 ++
      text.drop 24)
  else none

def hyphens : List Nat := [4, 6, 8, 10]

def groupedHex (number : Nat) : List UInt8 → List Char
  | [] => []
  | byte :: bytes =>
    hexByte byte ++ (if number + 1 ∈ hyphens then ['-'] else []) ++ groupedHex (number + 1) bytes

def uuidPlace (number : Nat) : Nat := 2 * number + hyphens.countP (· ≤ number)

section Loop
variable {number : Nat} {written : List Char} {byte : UInt8} {bytes : List UInt8}

theorem uuidRoom_of_le : ∀ index ≤ uuidMax, uuidRoom index = uuidMax - index := by decide

/-- The pattern has its hyphens where the loop has written all digits before them, and what a byte
adds leaves room for a terminator. -/
theorem uuidPattern_marks : ∀ number < 16,
    (uuidPattern ++ [nul])[uuidPlace number + 2]?.isSome ∧
    ((uuidPattern ++ [nul])[uuidPlace number + 2]? = some '-' ↔ number + 1 ∈ hyphens) ∧
    (uuidPattern[uuidPlace number + 2]? = some '-' ↔ number + 1 ∈ hyphens) ∧
    uuidPlace (number + 1) = uuidPlace number + 2 + (if number + 1 ∈ hyphens then 1 else 0) ∧
    uuidPlace (number + 1) < uuidMax := by decide

theorem length_groupedHex (number : Nat) (byte : UInt8) :
    (groupedHex number [byte]).length = 2 + (if number + 1 ∈ hyphens then 1 else 0) := by
  by_cases marked : number + 1 ∈ hyphens
  · rw [groupedHex, if_pos marked, if_pos marked]
    rfl
  · rw [groupedHex, if_neg marked, if_neg marked]
    rfl

theorem append_zeroed {text : List Char} (room : written.length + text.length < uuidMax) :
    UuidText.append ⟨zeroed uuidMax written, written.length⟩ text =
      some ⟨zeroed uuidMax (written ++ text), (written ++ text).length⟩ := by
  have inside : written.length ≤ uuidMax := by omega
  simp only [UuidText.append, uuidRoom_of_le _ inside, snprintfAt_zeroed room, List.length_append,
    Option.map_some]

theorem uuidTurn_zeroed (early : number < 16) (placed : written.length = uuidPlace number) (byte : UInt8) :
    uuidTurn ⟨zeroed uuidMax written, written.length⟩ byte =
      some ⟨zeroed uuidMax (written ++ groupedHex number [byte]),
        (written ++ groupedHex number [byte]).length⟩ := by
  obtain ⟨read, marked, _, next, room⟩ := uuidPattern_marks number early
  obtain ⟨mark, found⟩ := Option.isSome_iff_exists.mp read
  have two : (hexByte byte).length = 2 := rfl
  have inside : written.length < uuidMax := by omega
  have digits : UuidText.append ⟨zeroed uuidMax written, written.length⟩ (hexByte byte) =
      some ⟨zeroed uuidMax (written ++ hexByte byte), (written ++ hexByte byte).length⟩ :=
    append_zeroed (by omega)
  have place : (written ++ hexByte byte).length = uuidPlace number + 2 := by
    rw [List.length_append, placed, two]
  rw [found, Option.some.injEq] at marked
  rw [uuidTurn, if_pos inside, digits, Option.bind_eq_bind, Option.bind_some, place, found, Option.bind_eq_bind,
    Option.bind_some, ← place]
  by_cases hyphen : number + 1 ∈ hyphens
  · rw [if_pos hyphen] at next
    rw [if_pos (marked.mpr hyphen), append_zeroed (by rw [place, List.length_singleton]; omega), groupedHex,
      if_pos hyphen, groupedHex, List.append_nil, List.append_assoc]
  · rw [if_neg (mt marked.mp hyphen), groupedHex, if_neg hyphen, groupedHex, List.append_nil, List.append_nil]
    rfl

theorem groupedHex_cons (bytes : List UInt8) : groupedHex number (byte :: bytes) =
    groupedHex number [byte] ++ groupedHex (number + 1) bytes := by
  rw [groupedHex, groupedHex, groupedHex, List.append_nil]

theorem length_written_groupedHex (early : number < 16) (placed : written.length = uuidPlace number)
    (byte : UInt8) : (written ++ groupedHex number [byte]).length = uuidPlace (number + 1) := by
  obtain ⟨_, _, _, next, _⟩ := uuidPattern_marks number early
  rw [List.length_append, length_groupedHex, placed, next, Nat.add_assoc]

theorem uuidTurns_zeroed (count : number + bytes.length ≤ 16) (placed : written.length = uuidPlace number) :
    bytes.foldlM uuidTurn ⟨zeroed uuidMax written, written.length⟩ =
      some ⟨zeroed uuidMax (written ++ groupedHex number bytes),
        (written ++ groupedHex number bytes).length⟩ := by
  induction bytes generalizing number written with
  | nil =>
    rw [groupedHex, List.append_nil]
    rfl
  | cons byte bytes ih =>
    rw [List.length_cons] at count
    have early : number < 16 := by omega
    rw [List.foldlM_cons, uuidTurn_zeroed early placed, Option.bind_eq_bind, Option.bind_some,
      ih (by omega) (length_written_groupedHex early placed byte), groupedHex_cons bytes,
      List.append_assoc]

def nextDigits (text : List Char) (byte : UInt8) : List Char :=
  let digits := text ++ hexByte byte
  if uuidPattern[digits.length]? = some '-' then digits ++ ['-'] else digits

theorem nextDigits_eq (early : number < 16) (placed : written.length = uuidPlace number) (byte : UInt8) :
    nextDigits written byte = written ++ groupedHex number [byte] := by
  obtain ⟨_, _, marked, _, _⟩ := uuidPattern_marks number early
  have place : (written ++ hexByte byte).length = uuidPlace number + 2 := by
    rw [List.length_append, placed]
    rfl
  simp only [nextDigits, place]
  rw [groupedHex, groupedHex, List.append_nil]
  by_cases hyphen : number + 1 ∈ hyphens
  · rw [if_pos (marked.mpr hyphen), if_pos hyphen, List.append_assoc]
  · rw [if_neg (mt marked.mp hyphen), if_neg hyphen, List.append_nil]

theorem foldl_nextDigits (count : number + bytes.length ≤ 16) (placed : written.length = uuidPlace number) :
    bytes.foldl nextDigits written = written ++ groupedHex number bytes := by
  induction bytes generalizing number written with
  | nil => exact (List.append_nil written).symm
  | cons byte bytes ih =>
    rw [List.length_cons] at count
    have early : number < 16 := by omega
    rw [List.foldl_cons, nextDigits_eq early placed, ih (by omega) (length_written_groupedHex early placed byte),
      groupedHex_cons bytes, List.append_assoc]

theorem uuidText_eq (sixteen : bytes.length = 16) : uuidText bytes = String.ofList (groupedHex 0 bytes) := by
  have folded : bytes.foldl nextDigits [] = groupedHex 0 bytes := foldl_nextDigits (by omega) rfl
  rw [← folded]
  rfl

end Loop

section Canonical
variable {bytes : List UInt8} {digits : List Char}

theorem groupedHex_canonical (sixteen : bytes.length = 16) :
    groupedHex 0 bytes = canonicalUuid (hexText bytes) := by
  match bytes, sixteen with
  | [_, _, _, _, _, _, _, _, _, _, _, _, _, _, _, _], _ => rfl

theorem decodeUuid_canonical (sixteen : bytes.length = 16) :
    decodeUuid (canonicalUuid (hexText bytes)) = some bytes := by
  rw [← decodeHex_hexText bytes]
  match bytes, sixteen with
  | [_, _, _, _, _, _, _, _, _, _, _, _, _, _, _, _], _ =>
    rw [decodeUuid, if_pos ⟨rfl, by simp [canonicalUuid, hexText, hexByte]⟩]
    rfl

theorem hyphen_not_hexText : '-' ∉ hexText bytes := fun member =>
  absurd (mem_hexText member) (by decide)

theorem canonicalUuid_eq (digits : List Char) : canonicalUuid digits =
    (digits.take 8 ++ '-' :: (digits.drop 8).take 4 ++ '-' :: (digits.drop 12).take 4 ++
      '-' :: (digits.drop 16).take 4) ++ '-' :: digits.drop 20 := by
  simp [canonicalUuid, List.intercalate]

theorem length_canonicalUuid (count : digits.length = 32) : (canonicalUuid digits).length = 36 := by
  simp only [canonicalUuid_eq, List.length_append, List.length_cons, List.length_take, List.length_drop, count]
  rfl

theorem mem_canonicalUuid {c : Char} (member : c ∈ canonicalUuid digits) : c = '-' ∨ c ∈ digits := by
  simp only [canonicalUuid_eq, List.mem_append, List.mem_cons] at member
  rcases member with ((((first | hyphen | second) | hyphen | third) | hyphen | fourth) | hyphen | last)
  · exact .inr (List.mem_of_mem_take first)
  · exact .inl hyphen
  · exact .inr (List.mem_of_mem_drop (List.mem_of_mem_take second))
  · exact .inl hyphen
  · exact .inr (List.mem_of_mem_drop (List.mem_of_mem_take third))
  · exact .inl hyphen
  · exact .inr (List.mem_of_mem_drop (List.mem_of_mem_take fourth))
  · exact .inl hyphen
  · exact .inr (List.mem_of_mem_drop last)

theorem nul_not_canonicalUuid : nul ∉ canonicalUuid (hexText bytes) := by
  intro member
  rcases mem_canonicalUuid member with hyphen | digit
  · exact absurd hyphen (by decide)
  · exact absurd (mem_hexText digit) (by decide)

variable {front tail : List Char}

theorem reverse_takeWhile_hyphen (front : List Char) (plain : '-' ∉ tail) :
    (front ++ '-' :: tail).reverse.takeWhile (· != '-') = tail.reverse ∧
      (front ++ '-' :: tail).reverse.dropWhile (· != '-') = '-' :: front.reverse := by
  have all : ∀ c ∈ tail.reverse, (c != '-') = true := fun c member =>
    bne_iff_ne.mpr fun same => plain (same ▸ List.mem_reverse.mp member)
  have turned : (front ++ '-' :: tail).reverse = tail.reverse ++ '-' :: front.reverse := by
    rw [List.reverse_append, List.reverse_cons, List.append_assoc, List.singleton_append]
  rw [turned]
  constructor
  · rw [List.takeWhile_append_of_pos all, List.takeWhile_cons_of_neg (by decide), List.append_nil]
  · rw [List.dropWhile_append_of_pos all, List.dropWhile_cons_of_neg (by decide)]

theorem uuidName_last (plain : '-' ∉ tail) :
    uuidName (String.ofList (front ++ '-' :: tail)) = String.ofList tail := by
  rw [uuidName, String.toList_ofList, (reverse_takeWhile_hyphen front plain).1, List.reverse_reverse]

theorem uuidNameAt_last {size : Nat} (plain : '-' ∉ tail) (unended : nul ∉ front ++ '-' :: tail)
    (room : (front ++ '-' :: tail).length < size) :
    uuidNameAt (zeroed size (front ++ '-' :: tail)) = some tail := by
  have rest : (zeroed size (front ++ '-' :: tail)).drop (front.length + 1) =
      zeroed (size - (front.length + 1)) tail := by
    have together : front ++ '-' :: tail = (front ++ ['-']) ++ tail := by simp
    rw [zeroed, zeroed, together, List.append_assoc, List.drop_left' (by simp), List.length_append]
    simp [Nat.sub_sub]
  rw [List.length_append, List.length_cons] at room
  have whole : terminated (zeroed size (front ++ '-' :: tail)) = some (front ++ '-' :: tail) :=
    terminated_zeroed (by rw [List.length_append, List.length_cons]; omega) unended
  have ended : nul ∉ tail := fun member =>
    unended (List.mem_append_right _ (List.mem_cons_of_mem _ member))
  rw [uuidNameAt, whole]
  simp only [Option.bind_eq_bind, Option.bind_some, (reverse_takeWhile_hyphen front plain).2,
    List.length_cons, List.length_reverse, rest]
  exact terminated_zeroed (by omega) ended

end Canonical

/-- Every identifier is written within its array and in canonical form, and the name of the
hypervisor is the text of its last six bytes. -/
theorem uuidLoop_canonical (uuid : Vector UInt8 16) (config prepared : Config) (vm : VmConfig) (size : Nat) :
    let digits := hexText uuid.toList
    let text := canonicalUuid digits
    let tags := commandLineTags config prepared vm size (uuidText uuid.toList)
    ∃ final, uuidLoop uuid = some final ∧ final.text.length = uuidMax ∧
      terminated final.text = some text ∧
      digits.length = 32 ∧ (∀ digit ∈ digits, digit ∈ hexDigits) ∧
      decodeUuid text = some uuid.toList ∧
      uuidNameAt final.text = some (hexText (uuid.toList.drop 10)) ∧
      tags.lookup "@NAME@" = some (some (String.ofList (hexText (uuid.toList.drop 10)))) ∧
      tags.lookup "@UUID@" = some (some (String.ofList text)) := by
  intro digits text tags
  have sixteen : uuid.toList.length = 16 := Vector.length_toList
  have count : digits.length = 32 := by rw [length_hexText, sixteen]
  have written : groupedHex 0 uuid.toList = text := groupedHex_canonical sixteen
  have printed : uuidText uuid.toList = String.ofList text := by rw [uuidText_eq sixteen, written]
  have unended : nul ∉ text := nul_not_canonicalUuid
  have room : text.length < uuidMax := by
    rw [length_canonicalUuid count]
    decide
  have last : digits.drop 20 = hexText (uuid.toList.drop 10) := hexText_drop uuid.toList 10
  have plain : '-' ∉ hexText (uuid.toList.drop 10) := hyphen_not_hexText
  obtain ⟨front, split⟩ : ∃ front, text = front ++ '-' :: hexText (uuid.toList.drop 10) :=
    ⟨_, last ▸ canonicalUuid_eq digits⟩
  refine ⟨⟨zeroed uuidMax text, text.length⟩, ?_, length_zeroed (Nat.le_of_lt room),
    terminated_zeroed room unended, count, fun digit => mem_hexText, decodeUuid_canonical sixteen, ?_, ?_, ?_⟩
  · rw [← written]
    exact uuidTurns_zeroed (by omega) rfl
  · rw [split] at room unended ⊢
    exact uuidNameAt_last plain unended room
  · have name : uuidName (uuidText uuid.toList) = String.ofList (hexText (uuid.toList.drop 10)) := by
      rw [printed, split, uuidName_last plain]
    rw [← name]
    rfl
  · rw [← printed]
    rfl

end ClrOci
