import ClrOci.Marks

/-! Which signal the second argument of `kill` stands for. -/

set_option autoImplicit false

namespace ClrOci

open Foundation

def IsNumeral (text : String) : Prop := text ≠ "" ∧ ∀ c ∈ text.toList, c.isDigit = true

instance (text : String) : Decidable (IsNumeral text) :=
  @instDecidableAnd _ _ inferInstance (List.decidableBAll _ _)

def numeralValue (text : String) : Nat := Nat.ofDigitChars 10 text.toList 0

-- A numeral with the value of a positive `int`.
def numeralSignum (text : String) : Option Int32 :=
  if IsNumeral text ∧ 0 < numeralValue text ∧ numeralValue text ≤ intMax then
    some (Int32.ofInt (numeralValue text))
  else none

/-- The signal that an argument should stand for: a number, or a name of the table with
or without its beginning. -/
def wantedSignum (signame : String) : Option Int32 :=
  numeralSignum signame <|> signalTable.lookup signame <|> signalTable.lookup ("SIG" ++ signame)

-- What `handler_kill` does with a container once the argument is read.
def killWith (env : Env) (id : String) : Option Int32 → Action World
  | none => fun world => ⟨.returned false, world.setContainerId (some id)⟩
  | some signum => fun world =>
    withState (fun state => clrOciKill env state signum) (world.setContainerId (some id))

/-- The argument is taken for the signal that it should stand for, and rejected before the
state is read if there is none. -/
def ReadsSignal (signame : String) : Prop :=
  ∀ (env : Env) (id : String) (world : World), ¬ (id = "--help" ∨ id = "-h") →
    handlerKill env [id, signame] world = killWith env id (wantedSignum signame) world

theorem handlerKill_eq (env : Env) {id signame : String} (world : World)
    (named : ¬ (id = "--help" ∨ id = "-h")) :
    handlerKill env [id, signame] world = killWith env id (killSignum [id, signame]) world := by
  simp only [handlerKill, if_neg named]
  cases killSignum [id, signame] with
  | none => rfl
  | some signum => rfl

def Mark.signum? : Mark → Option Int32
  | .signal _ signum => some signum
  | _ => none

section Observed

def observedWorld : World := ⟨Config.fresh (some "/run"), createdSys []⟩

def signalsSince (before after : Sys) : List Int32 :=
  (before.marksSince (statePathOf (some "/run") "c1") after).filterMap Mark.signum?

theorem killWith_signals (signum : Option Int32) :
    signalsSince observedWorld.sys (killWith .calm "c1" signum observedWorld).state.sys = signum.toList := by
  cases signum with
  | none =>
    have same : (killWith .calm "c1" none observedWorld).state.sys = observedWorld.sys := rfl
    have puts : Puts (some "/run") "c1" 0 [] observedWorld.sys observedWorld.sys := Puts.refl _
    rw [signalsSince, same, puts.marksSince]
    rfl
  | some signum =>
    have present : (fetch (some "/run") "c1" (createdSys [])).isSome = true := by decide +kernel
    obtain ⟨fetched, got⟩ := Option.isSome_iff_exists.mp present
    obtain ⟨_, pid, status, fit⟩ := createdSys_holding.fetched got
    rw [← pid] at fit
    have puts := clrOciKill_puts .calm (createdSys []) signum fit (by rw [status]; decide)
    have acts : killWith .calm "c1" (some signum) observedWorld = clrOciKill .calm fetched.state signum
        ⟨configUpdate fetched.config fetched.state, createdSys []⟩ := by
      have found : getConfigAndState (observedWorld.setContainerId (some "c1")).sys.files
          (observedWorld.setContainerId (some "c1")).config = some fetched := got
      simp only [killWith, withState, found]
      rfl
    rw [signalsSince, acts]
    change (Sys.marksSince _ (createdSys []) _).filterMap _ = _
    rw [puts.marksSince]
    rfl

end Observed

theorem readsSignal_iff_killSignum (signame : String) :
    ReadsSignal signame ↔ ∀ id, killSignum [id, signame] = wantedSignum signame := by
  constructor
  · intro reads id
    have run := reads .calm "c1" observedWorld (by decide)
    rw [handlerKill_eq _ _ (by decide)] at run
    have signals := congrArg (fun run => signalsSince observedWorld.sys run.state.sys) run
    simp only [killWith_signals] at signals
    have same : killSignum ["c1", signame] = wantedSignum signame := by
      rw [← Option.head?_toList (o := killSignum _), signals, Option.head?_toList]
    exact same
  · intro same env id world named
    rw [handlerKill_eq env world named, same id]

theorem signalTable_names : ∀ entry ∈ signalTable,
    "SIG".toList.isPrefixOf entry.1.toList = true ∧ "SIGSIG".toList.isPrefixOf entry.1.toList = false ∧
      entry.1.length < 31 ∧ 0 < entry.2 ∧ atoi entry.1 = 0 ∧
      atoi (String.ofList (entry.1.toList.drop 3)) = 0 := by
  decide +kernel

section Names
variable {name : String} {signum : Int32}

theorem mem_of_lookup (found : signalTable.lookup name = some signum) : (name, signum) ∈ signalTable := by
  obtain ⟨before, after, split, _⟩ := List.lookup_eq_some_iff.mp found
  rw [split]
  exact List.mem_append_right before List.mem_cons_self

/-- A name that fills the buffer is none of the table, cut or not. -/
theorem lookup_copy (name : String) :
    signalTable.lookup (Buffer.copy 31 name).text = signalTable.lookup name := by
  by_cases fits : name.length ≤ 31
  · rw [Buffer.copy_text_of_fits fits]
  · have unknown (other : String) (long : 31 ≤ other.length) : signalTable.lookup other = none := by
      cases found : signalTable.lookup other with
      | none => rfl
      | some signum =>
        have short : other.length < 31 := (signalTable_names _ (mem_of_lookup found)).2.2.1
        omega
    rw [unknown name (by omega), unknown _ (by rw [Buffer.length_copy]; omega)]

theorem lookup_without (other : "SIG".toList.isPrefixOf name.toList = false) :
    signalTable.lookup name = none := by
  cases found : signalTable.lookup name with
  | none => rfl
  | some signum =>
    have named := (signalTable_names _ (mem_of_lookup found)).1
    rw [other] at named
    cases named

theorem lookup_twice (already : "SIG".toList.isPrefixOf name.toList = true) :
    signalTable.lookup ("SIG" ++ name) = none := by
  cases found : signalTable.lookup ("SIG" ++ name) with
  | none => rfl
  | some signum =>
    have once := (signalTable_names _ (mem_of_lookup found)).2.1
    obtain ⟨rest, split⟩ := List.isPrefixOf_iff_prefix.mp already
    rw [String.toList_append, ← split] at once
    cases once

theorem getSignum_eq (signame : String) : getSignum signame =
    ((signalTable.lookup signame).or (signalTable.lookup ("SIG" ++ signame))).getD (-1) := by
  unfold getSignum
  cases given : "SIG".toList.isPrefixOf signame.toList with
  | true =>
    simp only [↓reduceIte, lookup_copy]
    rw [lookup_twice given, Option.or_none]
  | false =>
    simp only [Bool.false_eq_true, ↓reduceIte, lookup_copy]
    rw [lookup_without given, Option.none_or]

theorem atoi_of_name (found : (signalTable.lookup name).or (signalTable.lookup ("SIG" ++ name)) = some signum) :
    atoi name = 0 ∧ 0 < signum := by
  rcases Option.or_eq_some_iff.mp found with found | ⟨_, found⟩
  · have named := signalTable_names _ (mem_of_lookup found)
    exact ⟨named.2.2.2.2.1, named.2.2.2.1⟩
  · have named := signalTable_names _ (mem_of_lookup found)
    refine ⟨?_, named.2.2.2.1⟩
    have rest := named.2.2.2.2.2
    rw [String.toList_append] at rest
    change atoi (String.ofList name.toList) = 0 at rest
    rwa [String.ofList_toList] at rest

end Names

section Numbers
variable {text : String}

theorem atol_numeral (numeral : IsNumeral text) : atol text = (min (numeralValue text) llongMax : Nat) :=
  Numeral.atol_text ⟨text, numeral.1, numeral.2⟩

theorem atoi_numeral (numeral : IsNumeral text) (fits : numeralValue text ≤ intMax) :
    atoi text = Int32.ofInt (numeralValue text) := by
  rw [atoi, atol_numeral numeral, Nat.min_eq_left]
  rw [intMax] at fits
  rw [llongMax]
  omega

theorem pos_ofInt_iff {value : Nat} (fits : value ≤ intMax) : 0 < Int32.ofInt value ↔ 0 < value := by
  rw [intMax] at fits
  rw [Int32.lt_iff_toInt_lt, Int32.toInt_ofInt_of_le (by omega) (by omega)]
  simp

end Numbers

theorem numeralSignum_of_numeral {text : String} (numeral : IsNumeral text)
    (fits : numeralValue text ≤ intMax) :
    numeralSignum text = if 0 < atoi text then some (atoi text) else none := by
  rw [atoi_numeral numeral fits, numeralSignum]
  simp only [numeral, fits, and_true, true_and, pos_ofInt_iff fits]

theorem numeralSignum_eq_none {text : String} (other : ¬ (IsNumeral text ∧ numeralValue text ≤ intMax)) :
    numeralSignum text = none := by
  rw [numeralSignum, if_neg]
  rintro ⟨numeral, _, fits⟩
  exact other ⟨numeral, fits⟩

/-- A name or a text that stands for no signal does not convert to a positive number. -/
theorem named_eq_none {text : String} (positive : 0 < atoi text) :
    (signalTable.lookup text).or (signalTable.lookup ("SIG" ++ text)) = none := by
  cases found : (signalTable.lookup text).or (signalTable.lookup ("SIG" ++ text)) with
  | none => rfl
  | some signum =>
    rw [(atoi_of_name found).1] at positive
    exact absurd positive (by decide)

theorem wantedSignum_eq (signame : String) : wantedSignum signame =
    (numeralSignum signame).or ((signalTable.lookup signame).or (signalTable.lookup ("SIG" ++ signame))) := by
  simp only [wantedSignum, Option.orElse_eq_orElse, Option.orElse_eq_or]

theorem killSignum_of_positive {signame : String} (positive : 0 < atoi signame) (id : String) :
    killSignum [id, signame] = some (atoi signame) := by
  have kept : ¬ atoi signame < 0 := Int32.lt_asymm positive
  simp only [killSignum, positive, ↓reduceIte, kept]

theorem killSignum_of_named {signame : String} (unsigned : ¬ 0 < atoi signame) (id : String) :
    killSignum [id, signame] =
      (signalTable.lookup signame).or (signalTable.lookup ("SIG" ++ signame)) := by
  simp only [killSignum, unsigned, ↓reduceIte, getSignum_eq]
  cases found : (signalTable.lookup signame).or (signalTable.lookup ("SIG" ++ signame)) with
  | none => rfl
  | some signum =>
    have kept : ¬ signum < 0 := Int32.lt_asymm (atoi_of_name found).2
    simp only [Option.getD_some, kept, ↓reduceIte]

theorem killSignum_eq_wanted_iff (id signame : String) : killSignum [id, signame] = wantedSignum signame ↔
    ¬ 0 < atoi signame ∨ IsNumeral signame ∧ numeralValue signame ≤ intMax := by
  rw [wantedSignum_eq]
  by_cases positive : 0 < atoi signame
  · rw [killSignum_of_positive positive, named_eq_none positive, Option.or_none]
    simp only [positive, not_true_eq_false, false_or]
    constructor
    · intro same
      by_contra other
      rw [numeralSignum_eq_none other] at same
      cases same
    · rintro ⟨numeral, fits⟩
      rw [numeralSignum_of_numeral numeral fits, if_pos positive]
  · have none : numeralSignum signame = none := by
      by_cases numeral : IsNumeral signame ∧ numeralValue signame ≤ intMax
      · rw [numeralSignum_of_numeral numeral.1 numeral.2, if_neg positive]
      · exact numeralSignum_eq_none numeral
    simp only [killSignum_of_named positive, none, Option.none_or, positive, not_false_eq_true, true_or]

/-- An argument is read as it should be exactly if it does not convert to a positive number,
or is only digits and fits in an `int`. -/
theorem readsSignal_iff (signame : String) : ReadsSignal signame ↔
    ¬ 0 < atoi signame ∨ IsNumeral signame ∧ numeralValue signame ≤ intMax := by
  rw [readsSignal_iff_killSignum]
  simp only [killSignum_eq_wanted_iff, forall_const]

/-- Text after the digits is not looked at: this container gets signal 9. -/
theorem trailing_text_sends :
    wantedSignum "9abc" = none ∧
      signalsSince observedWorld.sys (handlerKill .calm ["c1", "9abc"] observedWorld).state.sys = [9] ∧
      ¬ ReadsSignal "9abc" := by
  have sent : signalsSince observedWorld.sys
      (handlerKill .calm ["c1", "9abc"] observedWorld).state.sys = [9] := by
    rw [handlerKill_eq _ _ (by decide), killWith_signals]
    decide +kernel
  have wanted : wantedSignum "9abc" = none := by decide +kernel
  refine ⟨wanted, sent, fun reads => ?_⟩
  rw [reads .calm "c1" observedWorld (by decide), killWith_signals, wanted] at sent
  cases sent

end ClrOci
