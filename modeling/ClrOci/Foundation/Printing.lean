import Mathlib.Data.List.TakeWhile

/-! Printing into a fixed array of characters, and bytes in hexadecimal digits. -/

set_option autoImplicit false

namespace ClrOci.Foundation

def nul : Char := Char.ofNat 0

def storeAt (memory : List Char) (index : Nat) : List Char → Option (List Char)
  | [] => some memory
  | c :: text => if index < memory.length then storeAt (memory.set index c) (index + 1) text else none

/-- `g_snprintf` at a place of an array: what `size` has room for is stored with its terminator, and
the length of the whole text is returned. -/
def snprintfAt (memory : List Char) (index size : Nat) (text : List Char) : Option (List Char × Nat) :=
  if size = 0 then some (memory, text.length)
  else (storeAt memory index (text.take (size - 1) ++ [nul])).map fun stored => (stored, text.length)

def terminated (memory : List Char) : Option (List Char) :=
  if nul ∈ memory then some (memory.takeWhile (· != nul)) else none

def zeroed (size : Nat) (text : List Char) : List Char := text ++ List.replicate (size - text.length) nul

section Storing
variable {size : Nat} {written text : List Char}

theorem storeAt_replaces {front old back : List Char} (same : old.length = text.length) :
    storeAt (front ++ old ++ back) front.length text = some (front ++ text ++ back) := by
  induction text generalizing front old with
  | nil =>
    rw [List.length_eq_zero_iff.mp same]
    rfl
  | cons c text ih =>
    cases old with
    | nil => cases same
    | cons before old =>
      have inside : front.length < (front ++ before :: old ++ back).length := by
        simp only [List.length_append, List.length_cons]
        omega
      have placed : (front ++ before :: old ++ back).set front.length c = (front ++ [c]) ++ old ++ back := by
        simp
      have later : storeAt ((front ++ [c]) ++ old ++ back) (front ++ [c]).length text =
          some ((front ++ [c]) ++ text ++ back) := ih (Nat.succ.inj same)
      rw [List.length_append, List.length_singleton] at later
      rw [storeAt, if_pos inside, placed, later, List.append_assoc front [c] text, List.singleton_append]

theorem length_zeroed (fits : text.length ≤ size) : (zeroed size text).length = size := by
  rw [zeroed, List.length_append, List.length_replicate]
  omega

/-- Printing behind the text of a zeroed array that has room for more appends to it. -/
theorem snprintfAt_zeroed (room : written.length + text.length < size) :
    snprintfAt (zeroed size written) written.length (size - written.length) text =
      some (zeroed size (written ++ text), text.length) := by
  have whole : text.take (size - written.length - 1) = text := List.take_of_length_le (by omega)
  have parted : zeroed size written =
      written ++ List.replicate (text ++ [nul]).length nul ++
        List.replicate (size - written.length - text.length - 1) nul := by
    rw [zeroed, List.append_assoc, List.replicate_append_replicate, List.length_append, List.length_singleton]
    congr 2
    omega
  have ended : written ++ (text ++ [nul]) ++ List.replicate (size - written.length - text.length - 1) nul =
      zeroed size (written ++ text) := by
    have one : size - (written.length + text.length) = size - written.length - text.length - 1 + 1 := by omega
    simp [zeroed, one, List.replicate_succ]
  rw [snprintfAt, if_neg (by omega), whole, parted, storeAt_replaces List.length_replicate, ended]
  rfl

theorem takeWhile_plain (plain : nul ∉ text) : text.takeWhile (· != nul) = text := by
  rw [List.takeWhile_eq_self_iff]
  intro c member
  exact bne_iff_ne.mpr fun same => plain (same ▸ member)

theorem terminated_zeroed (room : text.length < size) (plain : nul ∉ text) :
    terminated (zeroed size text) = some text := by
  obtain ⟨spare, filled⟩ : ∃ spare, size - text.length = spare + 1 := ⟨size - text.length - 1, by omega⟩
  have ended : zeroed size text = text ++ nul :: List.replicate spare nul := by
    rw [zeroed, filled, List.replicate_succ]
  have kept : text.takeWhile (· != nul) = text := takeWhile_plain plain
  rw [terminated, ended, if_pos (List.mem_append_right _ List.mem_cons_self), List.takeWhile_append,
    kept, if_pos rfl, List.takeWhile_cons_of_neg (by simp), List.append_nil]

end Storing

/-- The two lower-case digits of a byte: `%02x`. -/
def hexByte (byte : UInt8) : List Char :=
  [Nat.digitChar (byte.toNat / 16), Nat.digitChar (byte.toNat % 16)]

def hexText (bytes : List UInt8) : List Char := bytes.flatMap hexByte

def hexDigits : List Char := "0123456789abcdef".toList

def hexValue (digit : Char) : Option Nat := hexDigits.findIdx? (· == digit)

def decodeHex : List Char → Option (List UInt8)
  | [] => some []
  | [_] => none
  | high :: low :: rest => do
    let high ← hexValue high
    let low ← hexValue low
    let bytes ← decodeHex rest
    return UInt8.ofNat (16 * high + low) :: bytes

section Hexadecimal
variable {bytes : List UInt8}

theorem hexValue_digitChar : ∀ value < 16,
    hexValue (Nat.digitChar value) = some value ∧ Nat.digitChar value ∈ hexDigits := by decide

theorem decodeHex_hexText (bytes : List UInt8) : decodeHex (hexText bytes) = some bytes := by
  induction bytes with
  | nil => rfl
  | cons byte bytes ih =>
    have bound : byte.toNat < 256 := byte.toNat_lt
    have high := (hexValue_digitChar (byte.toNat / 16) (by omega)).1
    have low := (hexValue_digitChar (byte.toNat % 16) (by omega)).1
    have joined : 16 * (byte.toNat / 16) + byte.toNat % 16 = byte.toNat := Nat.div_add_mod byte.toNat 16
    have split : hexText (byte :: bytes) = Nat.digitChar (byte.toNat / 16) ::
        Nat.digitChar (byte.toNat % 16) :: hexText bytes := rfl
    simp only [split, decodeHex, high, low, ih, Option.bind_eq_bind, Option.bind_some, Option.pure_def, joined,
      UInt8.ofNat_toNat]

theorem length_hexText (bytes : List UInt8) : (hexText bytes).length = 2 * bytes.length := by
  induction bytes with
  | nil => rfl
  | cons byte bytes ih =>
    have two : (hexByte byte).length = 2 := rfl
    rw [hexText, List.flatMap_cons, List.length_append, ← hexText, ih, two, List.length_cons]
    omega

theorem hexText_drop (bytes : List UInt8) (count : Nat) :
    (hexText bytes).drop (2 * count) = hexText (bytes.drop count) := by
  induction count generalizing bytes with
  | zero => rfl
  | succ count ih =>
    cases bytes with
    | nil => rw [List.drop_nil, hexText, List.flatMap_nil, List.drop_nil]
    | cons byte bytes =>
      rw [List.drop_succ_cons, ← ih bytes]
      rfl

theorem mem_hexText {c : Char} (member : c ∈ hexText bytes) : c ∈ hexDigits := by
  obtain ⟨byte, _, digit⟩ := List.mem_flatMap.mp member
  have bound : byte.toNat < 256 := byte.toNat_lt
  simp only [hexByte, List.mem_cons, List.not_mem_nil, or_false] at digit
  rcases digit with rfl | rfl
  · exact (hexValue_digitChar _ (by omega)).2
  · exact (hexValue_digitChar _ (by omega)).2

end Hexadecimal

end ClrOci.Foundation
