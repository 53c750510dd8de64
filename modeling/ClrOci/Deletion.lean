import ClrOci.Foundation.Redirection
import ClrOci.Runtime

/-! What the shell reads when the runtime directory is deleted. -/

set_option autoImplicit false

namespace ClrOci

open Foundation Foundation.Shell

def removal (path : List Char) : SimpleCommand where
  words := ["/bin/rm".toList, "-rf".toList, path]
  redirects := [.file 1 "/dev/null".toList, .duplicate 2 "1".toList]

def rmFront : List Char := "/bin/rm -rf \"".toList
def rmBack : List Char := " >/dev/null 2>&1".toList

def rmFrontTokens : List Token := [.word "/bin/rm".toList, .word "-rf".toList]

def rmBackTokens : List Token :=
  [.great, .word "/dev/null".toList, .ioNumber ['2'], .greatAnd, .word ['1']]

theorem rmBack_quoted : "\" >/dev/null 2>&1".toList = '"' :: rmBack := by rfl

theorem rmCommand_toList (path : String) :
    (rmCommand path).toList = rmFront ++ ((path.toList ++ ['"']) ++ rmBack) := by
  unfold rmCommand rmFront
  simp only [String.toList_append, rmBack_quoted, List.append_assoc, List.singleton_append]

theorem lex_rmFront : rmFront.foldlM Lexing.step {} =
    some ⟨.double, some [], false, rmFrontTokens⟩ := by rfl

theorem lex_rmBack {lexing : Lexing} (outside : lexing.place = .unquoted) :
    (rmBack.foldlM Lexing.step lexing).bind Lexing.finish = some (lexing.endWord.tokens ++ rmBackTokens) := by
  have blank : lexing.step ' ' = some lexing.endWord := by
    simp [Lexing.step, outside, Lexing.stepUnquoted]
  have ended : lexing.endWord.place = .unquoted ∧ lexing.endWord.word = none :=
    ⟨Lexing.endWord_place.trans outside, Lexing.endWord_word⟩
  have redirected (bare : Bool) (tokens : List Token) :
      (">/dev/null 2>&1".toList.foldlM Lexing.step ⟨.unquoted, none, bare, tokens⟩).bind Lexing.finish =
        some (((((tokens ++ [.great]) ++ [.word "/dev/null".toList]) ++ [.ioNumber ['2']]) ++
          [.greatAnd]) ++ [.word ['1']]) := by
    rfl
  rw [show rmBack = ' ' :: ">/dev/null 2>&1".toList by rfl, List.foldlM_cons, blank, Option.bind_eq_bind,
    Option.bind_some]
  generalize lexing.endWord = lexing at ended
  obtain ⟨place, word, bare, tokens⟩ := lexing
  obtain ⟨rfl, rfl⟩ := ended
  rw [redirected]
  simp [rmBackTokens]

theorem lex_rmBack_open {lexing lexing' : Lexing} (inside : lexing.place = .single ∨ lexing.place = .double)
    (read : rmBack.foldlM Lexing.step lexing = some lexing') : lexing'.finish = none := by
  have each : rmBack.all (fun c => c ∉ ['\'', '"', '\\']) = true := by rfl
  have plain : ∀ c ∈ rmBack, c ∉ ['\'', '"', '\\'] := fun c member =>
    of_decide_eq_true (List.all_eq_true.mp each c member)
  have still := Lexing.foldlM_open plain inside read
  rw [Lexing.finish, if_neg]
  rcases still with still | still <;> simp [still]

theorem rmCommand_tokens (path : String) :
    tokens (rmCommand path).toList =
      (((path.toList ++ ['"']).foldlM Lexing.step ⟨.double, some [], false, rmFrontTokens⟩).bind fun lexing =>
        (rmBack.foldlM Lexing.step lexing).bind Lexing.finish) := by
  rw [tokens, rmCommand_toList, List.foldlM_append, lex_rmFront, Option.bind_eq_bind, Option.bind_some,
    List.foldlM_append, Option.bind_eq_bind, Option.bind_assoc]

theorem removal_size (path : List Char) : (removal path).size = 20 + path.length := by
  simp [removal, SimpleCommand.size, Redirect.size]
  omega

/-- The shell reads the command as one removal of the path exactly if the path is inert. -/
theorem rmCommand_reads_iff (path : String) :
    simpleCommand (rmCommand path).toList = some (removal path.toList) ↔ Inert path.toList := by
  rw [simpleCommand, rmCommand_tokens]
  constructor
  · intro reads
    obtain ⟨tokens, lexed, parsed⟩ := Option.bind_eq_some_iff.mp reads
    obtain ⟨lexing, quoted, rest⟩ := Option.bind_eq_some_iff.mp lexed
    obtain ⟨lexing', back, finished⟩ := Option.bind_eq_some_iff.mp rest
    obtain ⟨before, _, last⟩ := by
      rw [List.foldlM_append, Option.bind_eq_bind] at quoted
      exact Option.bind_eq_some_iff.mp quoted
    rw [List.foldlM_cons, Option.bind_eq_bind] at last
    obtain ⟨after, stepped, same⟩ := Option.bind_eq_some_iff.mp last
    obtain rfl := Option.some.inj same
    rcases Lexing.step_quote_place stepped with outside | inside
    · -- All the characters of the path are in its word, so none of them was active.
      have lexed := lex_rmBack outside
      rw [rest] at lexed
      obtain rfl := Option.some.inj lexed
      have total := ofTokens_size parsed
      rw [removal_size, List.map_append, List.sum_append] at total
      have ended : after.endWord.size = after.size := Lexing.size_endWord
      rw [Lexing.size, Lexing.endWord_word] at ended
      change _ + 0 = _ at ended
      change 20 + _ = _ + 10 at total
      apply Lexing.inert_of_read rfl quoted outside
      change 10 + _ ≤ _
      omega
    · rw [lex_rmBack_open inside back] at finished
      cases finished
  · intro inert
    have inside := Lexing.foldlM_inert inert [] false rmFrontTokens
    rw [List.foldlM_append, inside, Option.bind_eq_bind, Option.bind_some, List.nil_append]
    have closed : ['"'].foldlM Lexing.step ⟨.double, some path.toList, false, rmFrontTokens⟩ =
        some ⟨.unquoted, some path.toList, false, rmFrontTokens⟩ := by rfl
    rw [closed, Option.bind_some, lex_rmBack rfl, Option.bind_some]
    rfl

/-- The id comes from the command line, and its substitution is not quoted. -/
theorem rmCommand_substitution : isAbsolute (runtimePath none "$(reboot)").text = true ∧
    simpleCommand (rmCommand (runtimePath none "$(reboot)").text).toList ≠
      some (removal (runtimePath none "$(reboot)").text.toList) := by
  decide +kernel

end ClrOci
