import ClrOci.Foundation.Shell
import Mathlib.Algebra.Ring.Nat

/-! How a POSIX shell reads a text into one simple command with redirections of its output.

The text is cut into tokens first. A digit word right before a redirection is the
descriptor that is redirected; any other operator, an expansion and an open quotation
end the reading.
-/

set_option autoImplicit false

namespace ClrOci.Foundation.Shell

inductive Token where
  | word (text : List Char)
  | ioNumber (digits : List Char)
  | great
  | greatAnd
  deriving DecidableEq

/-- Where a character stands; a `>` may go on. -/
inductive Place where
  | unquoted | great | escaped | single | double | doubleEscaped
  deriving DecidableEq

structure Lexing where
  place : Place := .unquoted
  word : Option (List Char) := none
  -- Nothing of the word was quoted.
  bare : Bool := true
  tokens : List Token := []

namespace Lexing

def push (lexing : Lexing) (c : Char) : Lexing :=
  { lexing with word := some (lexing.word.getD [] ++ [c]) }

def quote (lexing : Lexing) (place : Place) : Lexing :=
  { lexing with place := place, word := some (lexing.word.getD []), bare := false }

def emit (lexing : Lexing) (token : Token) : Lexing :=
  { lexing with word := none, bare := true, tokens := lexing.tokens ++ [token] }

def endWord (lexing : Lexing) : Lexing :=
  match lexing.word with
  | none => lexing
  | some word => lexing.emit (.word word)

-- A word before `>` is a descriptor if it is all digits.
def endNumber (lexing : Lexing) : Lexing :=
  match lexing.word with
  | none => lexing
  | some word =>
    if lexing.bare && word.all Char.isDigit then lexing.emit (.ioNumber word)
    else lexing.emit (.word word)

def stepUnquoted (lexing : Lexing) (c : Char) : Option Lexing :=
  if c = '\'' then some (lexing.quote .single)
  else if c = '"' then some (lexing.quote .double)
  else if c = '\\' then some { lexing with place := .escaped, bare := false }
  else if c = ' ' ∨ c = '\t' then some lexing.endWord
  else if c = '>' then some { lexing.endNumber with place := .great }
  else if c = '\n' ∨ c ∈ special then none
  else some (lexing.push c)

def step (lexing : Lexing) (c : Char) : Option Lexing :=
  let back (place : Place) : Lexing := { lexing with place := place }
  match lexing.place with
  | .unquoted => lexing.stepUnquoted c
  | .great =>
    if c = '&' then some ((back .unquoted).emit .greatAnd)
    else if c = '>' ∨ c = '|' then none
    else ((back .unquoted).emit .great).stepUnquoted c
  | .escaped => if c = '\n' then some (back .unquoted) else some ((back .unquoted).push c)
  | .single => if c = '\'' then some (back .unquoted) else some (lexing.push c)
  | .double =>
    if c = '"' then some (back .unquoted)
    else if c = '\\' then some (back .doubleEscaped)
    else if c = '$' ∨ c = '`' then none
    else some (lexing.push c)
  | .doubleEscaped =>
    if c = '\n' then some (back .double)
    else if c ∈ escapable then some ((back .double).push c)
    else some (((back .double).push '\\').push c)

def finish (lexing : Lexing) : Option (List Token) :=
  if lexing.place = .unquoted then some lexing.endWord.tokens else none

end Lexing

def tokens (text : List Char) : Option (List Token) :=
  (text.foldlM Lexing.step {}).bind Lexing.finish

def Unfinished (text : List Char) : Prop :=
  ∃ lexing, text.foldlM Lexing.step {} = some lexing ∧ lexing.finish = none

theorem Unfinished.tokens_eq {text : List Char} (unfinished : Unfinished text) : tokens text = none := by
  obtain ⟨lexing, read, stops⟩ := unfinished
  rw [tokens, read]
  exact stops

inductive Redirect where
  | file (descriptor : Nat) (path : List Char)
  | duplicate (descriptor : Nat) (source : List Char)
  deriving DecidableEq

structure SimpleCommand where
  words : List (List Char)
  redirects : List Redirect
  deriving DecidableEq

def SimpleCommand.redirected (command : SimpleCommand) (redirect : Redirect) : SimpleCommand :=
  { command with redirects := redirect :: command.redirects }

def ofTokens : List Token → Option SimpleCommand
  | [] => some ⟨[], []⟩
  | .word word :: rest => (ofTokens rest).map fun command => { command with words := word :: command.words }
  | .great :: .word path :: rest => (ofTokens rest).map (·.redirected (.file 1 path))
  | .greatAnd :: .word source :: rest => (ofTokens rest).map (·.redirected (.duplicate 1 source))
  | .ioNumber digits :: .great :: .word path :: rest =>
    (ofTokens rest).map (·.redirected (.file (Nat.ofDigitChars 10 digits 0) path))
  | .ioNumber digits :: .greatAnd :: .word source :: rest =>
    (ofTokens rest).map (·.redirected (.duplicate (Nat.ofDigitChars 10 digits 0) source))
  | _ => none

def simpleCommand (text : List Char) : Option SimpleCommand := (tokens text).bind ofTokens

structure Inert (text : List Char) : Prop where
  inactive : ∀ c ∈ ['"', '$', '`'], c ∉ text
  unescaped : ∀ c ∈ '\n' :: escapable, ¬ ['\\', c] <:+: text
  ends : text.getLast? ≠ some '\\'

section Inert
variable {c : Char} {text : List Char}

theorem Inert.nil : Inert [] where
  inactive _ _ := List.not_mem_nil
  unescaped _ _ inside := by cases List.infix_nil.mp inside
  ends := by decide

theorem Inert.cons (ordinary : c ∉ '\\' :: ['"', '$', '`']) (inert : Inert text) : Inert (c :: text) where
  inactive active member inside := by
    rcases List.mem_cons.mp inside with rfl | later
    · apply ordinary
      simp only [List.mem_cons, List.not_mem_nil, or_false] at member ⊢
      rcases member with rfl | rfl | rfl <;> simp
    · exact inert.inactive active member later
  unescaped escaped member inside := by
    rcases List.infix_cons_iff.mp inside with starts | later
    · rw [(List.cons_prefix_cons.mp starts).1.symm] at ordinary
      exact ordinary (by decide)
    · exact inert.unescaped escaped member later
  ends last := by
    cases text with
    | nil =>
      have same : c = '\\' := Option.some.inj last
      rw [same] at ordinary
      exact ordinary (by decide)
    | cons first rest => exact inert.ends (by rwa [List.getLast?_cons_cons] at last)

theorem Inert.of_ordinary (ordinary : text.all (fun c => ! ['\\', '"', '$', '`'].contains c) = true) :
    Inert text := by
  induction text with
  | nil => exact Inert.nil
  | cons c rest ih =>
    simp only [List.all_cons, Bool.and_eq_true] at ordinary
    refine Inert.cons ?_ (ih ordinary.2)
    simpa using ordinary.1

theorem Inert.cons_backslash (kept : c ∉ '\n' :: escapable) (inert : Inert text) :
    Inert ('\\' :: c :: text) where
  inactive active member inside := by
    rcases List.mem_cons.mp inside with rfl | inside
    · exact absurd member (by decide)
    · rcases List.mem_cons.mp inside with rfl | later
      · apply kept
        simp only [List.mem_cons, List.not_mem_nil, or_false] at member
        rcases member with rfl | rfl | rfl <;> decide
      · exact inert.inactive active member later
  unescaped escaped member inside := by
    rcases List.infix_cons_iff.mp inside with starts | inside
    · have same := (List.cons_prefix_cons.mp (List.cons_prefix_cons.mp starts).2).1
      exact kept (same ▸ member)
    · rcases List.infix_cons_iff.mp inside with starts | later
      · apply kept
        rw [← (List.cons_prefix_cons.mp starts).1]
        decide
      · exact inert.unescaped escaped member later
  ends last := by
    rw [List.getLast?_cons_cons] at last
    cases text with
    | nil =>
      have same : c = '\\' := Option.some.inj last
      rw [same] at kept
      exact kept (by decide)
    | cons first rest => exact inert.ends (by rwa [List.getLast?_cons_cons] at last)

theorem Inert.tail (inert : Inert (c :: text)) : Inert text where
  inactive active member inside := inert.inactive active member (List.mem_cons_of_mem c inside)
  unescaped escaped member inside :=
    inert.unescaped escaped member (List.infix_cons_iff.mpr (Or.inr inside))
  ends last := by
    cases text with
    | nil => cases last
    | cons first rest => exact inert.ends (by rwa [List.getLast?_cons_cons])

end Inert

def Token.size : Token → Nat
  | .word text => text.length
  | _ => 0

namespace Lexing

def size (lexing : Lexing) : Nat :=
  (lexing.tokens.map Token.size).sum + (lexing.word.getD []).length

def held (lexing : Lexing) : Nat :=
  if lexing.place = .escaped ∨ lexing.place = .doubleEscaped then 1 else 0

variable {lexing lexing' : Lexing} {c : Char} {text : List Char}

theorem size_push : (lexing.push c).size = lexing.size + 1 := by
  simp [size, push, Nat.add_assoc]

theorem size_quote (place : Place) : (lexing.quote place).size = lexing.size := by
  simp [size, quote]

theorem size_emit (token : Token) :
    (lexing.emit token).size = (lexing.tokens.map Token.size).sum + token.size := by
  simp [size, emit]

theorem endWord_word : lexing.endWord.word = none := by
  unfold endWord
  split
  · assumption
  · rfl

theorem endWord_place : lexing.endWord.place = lexing.place := by
  unfold endWord
  split <;> rfl

theorem size_endWord : lexing.endWord.size = lexing.size := by
  unfold endWord
  split
  · rfl
  · next word given => rw [size_emit, size, given]; rfl

theorem size_endNumber : lexing.endNumber.size ≤ lexing.size := by
  unfold endNumber
  split
  · exact Nat.le_refl _
  · next word given =>
    split
    · rw [size_emit, size]
      exact Nat.add_le_add_left (Nat.zero_le _) _
    · rw [size_emit, size, given]
      exact Nat.le_refl _

theorem held_le (lexing : Lexing) : lexing.held ≤ 1 := by
  unfold held
  split <;> omega

theorem stepUnquoted_size (outside : lexing.place = .unquoted)
    (stepped : lexing.stepUnquoted c = some lexing') :
    lexing'.size + lexing'.held ≤ lexing.size + 1 := by
  have held := held_le lexing'
  unfold stepUnquoted at stepped
  split at stepped
  · obtain rfl := Option.some.inj stepped
    rw [size_quote]
    omega
  · split at stepped
    · obtain rfl := Option.some.inj stepped
      rw [size_quote]
      omega
    · split at stepped
      · obtain rfl := Option.some.inj stepped
        exact Nat.add_le_add_left held _
      · split at stepped
        · obtain rfl := Option.some.inj stepped
          rw [size_endWord]
          omega
        · split at stepped
          · obtain rfl := Option.some.inj stepped
            exact Nat.add_le_add size_endNumber held
          · split at stepped
            · cases stepped
            · obtain rfl := Option.some.inj stepped
              have none : (lexing.push c).held = 0 := by simp [Lexing.held, push, outside]
              rw [size_push]
              omega

/-- A character adds at most itself to the words, and a backslash that was kept back. -/
theorem step_size (stepped : lexing.step c = some lexing') :
    lexing'.size + lexing'.held ≤ lexing.size + lexing.held + 1 := by
  unfold step at stepped
  cases place : lexing.place with
  | unquoted =>
    rw [place] at stepped
    have bound := stepUnquoted_size place stepped
    omega
  | great =>
    rw [place] at stepped
    have shorter (token : Token) : ({ lexing with place := .unquoted }.emit token).size ≤
        lexing.size + token.size := by
      rw [size_emit, size]
      exact Nat.add_le_add_right (Nat.le_add_right _ _) _
    dsimp only at stepped
    split at stepped
    · obtain rfl := Option.some.inj stepped
      have bound := shorter .greatAnd
      have none : ({ lexing with place := .unquoted }.emit .greatAnd).held = 0 := rfl
      simp only [Token.size] at bound
      omega
    · split at stepped
      · cases stepped
      · have bound := stepUnquoted_size rfl stepped
        have emitted := shorter .great
        simp only [Token.size] at emitted
        omega
  | escaped =>
    rw [place] at stepped
    dsimp only at stepped
    have held : lexing.held = 1 := by simp [Lexing.held, place]
    split at stepped
    · obtain rfl := Option.some.inj stepped
      change lexing.size + 0 ≤ _
      omega
    · obtain rfl := Option.some.inj stepped
      rw [size_push]
      change lexing.size + 1 + 0 ≤ _
      omega
  | single =>
    rw [place] at stepped
    dsimp only at stepped
    split at stepped
    · obtain rfl := Option.some.inj stepped
      change lexing.size + 0 ≤ _
      omega
    · obtain rfl := Option.some.inj stepped
      have none : (lexing.push c).held = 0 := by simp [Lexing.held, push, place]
      rw [size_push]
      omega
  | double =>
    rw [place] at stepped
    dsimp only at stepped
    split at stepped
    · obtain rfl := Option.some.inj stepped
      change lexing.size + 0 ≤ _
      omega
    · split at stepped
      · obtain rfl := Option.some.inj stepped
        change lexing.size + 1 ≤ _
        omega
      · split at stepped
        · cases stepped
        · obtain rfl := Option.some.inj stepped
          have none : (lexing.push c).held = 0 := by simp [Lexing.held, push, place]
          rw [size_push]
          omega
  | doubleEscaped =>
    rw [place] at stepped
    dsimp only at stepped
    have held : lexing.held = 1 := by simp [Lexing.held, place]
    split at stepped
    · obtain rfl := Option.some.inj stepped
      change lexing.size + 0 ≤ _
      omega
    · split at stepped
      · obtain rfl := Option.some.inj stepped
        rw [size_push]
        change lexing.size + 1 + 0 ≤ _
        omega
      · obtain rfl := Option.some.inj stepped
        rw [size_push, size_push]
        change lexing.size + 1 + 1 + 0 ≤ _
        omega

theorem foldlM_size (read : text.foldlM step lexing = some lexing') :
    lexing'.size + lexing'.held ≤ lexing.size + lexing.held + text.length := by
  induction text generalizing lexing with
  | nil =>
    obtain rfl := Option.some.inj read
    exact Nat.le_refl _
  | cons c text ih =>
    rw [List.foldlM_cons, Option.bind_eq_bind] at read
    obtain ⟨next, stepped, rest⟩ := Option.bind_eq_some_iff.mp read
    have first := step_size stepped
    have later := ih rest
    rw [List.length_cons]
    omega

/-- A quotation mark that ends unquoted is not in a word, or was escaped. -/
theorem step_quote (stepped : lexing.step '"' = some lexing') (outside : lexing'.place = .unquoted) :
    lexing'.size ≤ lexing.size + lexing.held := by
  unfold step at stepped
  cases place : lexing.place with
  | unquoted =>
    rw [place] at stepped
    obtain rfl := Option.some.inj stepped
    cases outside
  | great =>
    rw [place] at stepped
    obtain rfl := Option.some.inj stepped
    cases outside
  | escaped =>
    rw [place] at stepped
    obtain rfl := Option.some.inj stepped
    have held : lexing.held = 1 := by simp [Lexing.held, place]
    rw [size_push, held]
    exact Nat.le_refl _
  | single =>
    rw [place] at stepped
    obtain rfl := Option.some.inj stepped
    rw [push, place] at outside
    cases outside
  | double =>
    rw [place] at stepped
    obtain rfl := Option.some.inj stepped
    exact Nat.le_add_right _ _
  | doubleEscaped =>
    rw [place] at stepped
    obtain rfl := Option.some.inj stepped
    cases outside

theorem foldlM_closed (read : (text ++ ['"']).foldlM step lexing = some lexing')
    (outside : lexing'.place = .unquoted) :
    lexing'.size ≤ lexing.size + lexing.held + text.length := by
  rw [List.foldlM_append, Option.bind_eq_bind] at read
  obtain ⟨before, early, last⟩ := Option.bind_eq_some_iff.mp read
  rw [List.foldlM_cons, Option.bind_eq_bind] at last
  obtain ⟨after, stepped, same⟩ := Option.bind_eq_some_iff.mp last
  obtain rfl := Option.some.inj same
  have bound := foldlM_size early
  have closed := step_quote stepped outside
  omega

theorem inert_of_read (inside : lexing.place = .double)
    (read : (text ++ ['"']).foldlM step lexing = some lexing') (outside : lexing'.place = .unquoted)
    (all : lexing.size + text.length ≤ lexing'.size) : Inert text := by
  induction bound : text.length using Nat.strongRecOn generalizing text lexing with
  | ind n ih =>
    cases text with
    | nil => exact .nil
    | cons c text =>
      have held (lexing : Lexing) (inside : lexing.place = .double) : lexing.held = 0 := by
        simp [Lexing.held, inside]
      rw [List.cons_append, List.foldlM_cons, Option.bind_eq_bind, step, inside] at read
      obtain ⟨next, stepped, rest⟩ := Option.bind_eq_some_iff.mp read
      rw [List.length_cons] at all bound
      dsimp only at stepped
      split at stepped
      · -- The quotation is closed too early.
        obtain rfl := Option.some.inj stepped
        have closed := foldlM_closed rest outside
        change lexing'.size ≤ lexing.size + 0 + text.length at closed
        omega
      · next noQuote =>
        split at stepped
        · next backslash =>
          subst backslash
          obtain rfl := Option.some.inj stepped
          cases text with
          | nil =>
            obtain rfl := Option.some.inj rest
            cases outside
          | cons c text =>
            rw [List.cons_append, List.foldlM_cons, Option.bind_eq_bind] at rest
            obtain ⟨after, escaped, rest⟩ := Option.bind_eq_some_iff.mp rest
            rw [List.length_cons] at all bound
            rw [step] at escaped
            dsimp only at escaped
            split at escaped
            · obtain rfl := Option.some.inj escaped
              have closed := foldlM_closed rest outside
              change lexing'.size ≤ lexing.size + 0 + text.length at closed
              omega
            · next noNewline =>
              split at escaped
              · obtain rfl := Option.some.inj escaped
                have closed := foldlM_closed rest outside
                rw [size_push, held _ rfl] at closed
                change lexing'.size ≤ lexing.size + 1 + 0 + text.length at closed
                omega
              · next kept =>
                obtain rfl := Option.some.inj escaped
                apply Inert.cons_backslash
                · simpa [noNewline] using kept
                · apply ih text.length (by omega) rfl rest
                  · rw [size_push, size_push]
                    change lexing.size + 1 + 1 + text.length ≤ _
                    omega
                  · rfl
        · next noBackslash =>
          split at stepped
          · cases stepped
          · next inactive =>
            obtain rfl := Option.some.inj stepped
            rw [not_or] at inactive
            apply Inert.cons
            · simpa [noQuote, noBackslash] using inactive
            · have still : (lexing.push c).place = .double := inside
              apply ih text.length (by omega) still rest
              · rw [size_push]
                omega
              · rfl

theorem foldlM_inert (inert : Inert text) (word : List Char) (bare : Bool) (tokens : List Token) :
    text.foldlM step ⟨.double, some word, bare, tokens⟩ =
      some ⟨.double, some (word ++ text), bare, tokens⟩ := by
  induction bound : text.length using Nat.strongRecOn generalizing text word with
  | ind n ih =>
    cases text with
    | nil => simp
    | cons c text =>
      have noQuote : c ≠ '"' := fun same => inert.inactive '"' (by decide) (same ▸ List.mem_cons_self)
      have inactive : ¬ (c = '$' ∨ c = '`') := by
        rintro (rfl | rfl)
        · exact inert.inactive '$' (by decide) List.mem_cons_self
        · exact inert.inactive '`' (by decide) List.mem_cons_self
      rw [List.length_cons] at bound
      by_cases backslash : c = '\\'
      · subst backslash
        cases text with
        | nil => exact absurd rfl inert.ends
        | cons c text =>
          have kept : c ∉ '\n' :: escapable :=
            fun member => inert.unescaped c member ⟨[], text, rfl⟩
          simp only [List.mem_cons, not_or] at kept
          have escape : (Lexing.mk .double (some word) bare tokens).step '\\' =
              some ⟨.doubleEscaped, some word, bare, tokens⟩ := rfl
          have escaped : (Lexing.mk .doubleEscaped (some word) bare tokens).step c =
              some ⟨.double, some (word ++ ['\\', c]), bare, tokens⟩ := by
            simp [step, kept, push]
          rw [List.foldlM_cons, escape, Option.bind_eq_bind, Option.bind_some, List.foldlM_cons, escaped,
            Option.bind_eq_bind, Option.bind_some,
            ih text.length (by rw [List.length_cons] at bound; omega) inert.tail.tail _ rfl]
          simp
      · have ordinary : (Lexing.mk .double (some word) bare tokens).step c =
            some ⟨.double, some (word ++ [c]), bare, tokens⟩ := by
          simp [step, noQuote, backslash, inactive, push]
        rw [List.foldlM_cons, ordinary, Option.bind_eq_bind, Option.bind_some,
          ih text.length (by omega) inert.tail _ rfl]
        simp

theorem step_quote_place (stepped : lexing.step '"' = some lexing') :
    lexing'.place = .unquoted ∨ lexing'.place = .single ∨ lexing'.place = .double := by
  unfold step at stepped
  cases place : lexing.place with
  | unquoted | escaped | single | double | doubleEscaped | great =>
    rw [place] at stepped
    obtain rfl := Option.some.inj stepped
    simp [quote, push, emit, place]

theorem foldlM_open (plain : ∀ c ∈ text, c ∉ ['\'', '"', '\\'])
    (inside : lexing.place = .single ∨ lexing.place = .double)
    (read : text.foldlM step lexing = some lexing') :
    lexing'.place = .single ∨ lexing'.place = .double := by
  induction text generalizing lexing with
  | nil =>
    obtain rfl := Option.some.inj read
    exact inside
  | cons c text ih =>
    obtain ⟨here, later⟩ := List.forall_mem_cons.mp plain
    simp only [List.mem_cons, List.not_mem_nil, or_false, not_or] at here
    rw [List.foldlM_cons, Option.bind_eq_bind] at read
    obtain ⟨next, stepped, rest⟩ := Option.bind_eq_some_iff.mp read
    apply ih later _ rest
    rcases inside with single | double
    · left
      simp only [step, single, if_neg here.1] at stepped
      obtain rfl := Option.some.inj stepped
      exact single
    · right
      simp only [step, double, if_neg here.2.1, if_neg here.2.2] at stepped
      split at stepped
      · cases stepped
      · obtain rfl := Option.some.inj stepped
        exact double

end Lexing

def Redirect.size : Redirect → Nat
  | .file _ path => path.length
  | .duplicate _ source => source.length

def SimpleCommand.size (command : SimpleCommand) : Nat :=
  (command.words.map List.length).sum + (command.redirects.map Redirect.size).sum

theorem ofTokens_size {tokens : List Token} {command : SimpleCommand}
    (parsed : ofTokens tokens = some command) : command.size = (tokens.map Token.size).sum := by
  induction tokens using ofTokens.induct generalizing command with
  | case1 =>
    obtain rfl := Option.some.inj parsed
    rfl
  | case2 word rest ih =>
    obtain ⟨later, found, rfl⟩ := Option.map_eq_some_iff.mp parsed
    rw [List.map_cons, List.sum_cons, ← ih found]
    simp [SimpleCommand.size, Token.size]
    omega
  | case3 path rest ih =>
    obtain ⟨later, found, rfl⟩ := Option.map_eq_some_iff.mp parsed
    simp [SimpleCommand.size, SimpleCommand.redirected, Redirect.size, Token.size, ← ih found]
    omega
  | case4 source rest ih =>
    obtain ⟨later, found, rfl⟩ := Option.map_eq_some_iff.mp parsed
    simp [SimpleCommand.size, SimpleCommand.redirected, Redirect.size, Token.size, ← ih found]
    omega
  | case5 digits path rest ih =>
    obtain ⟨later, found, rfl⟩ := Option.map_eq_some_iff.mp parsed
    simp [SimpleCommand.size, SimpleCommand.redirected, Redirect.size, Token.size, ← ih found]
    omega
  | case6 digits source rest ih =>
    obtain ⟨later, found, rfl⟩ := Option.map_eq_some_iff.mp parsed
    simp [SimpleCommand.size, SimpleCommand.redirected, Redirect.size, Token.size, ← ih found]
    omega
  | case7 => simp_all [ofTokens]

end ClrOci.Foundation.Shell
