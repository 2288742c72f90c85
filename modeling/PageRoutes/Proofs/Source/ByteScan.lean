import Mathlib.Data.String.Basic
import PageRoutes.Proofs.Source.MethodEnd
/-!
The end of a body, looked for byte by byte. Braces are counted over the bytes of a source text, and
the count starts with the brace in front of the body. The count never falls below zero, and the scan
stops in front of the same brace as the one over characters, because no other character has the byte
of a brace in its encoding.
-/

set_option autoImplicit false

namespace PageRoutes.Source

open Text

def openingByte : UInt8 := 0x7B

def closingByte : UInt8 := 0x7D

def braceStep (byte : UInt8) : Int :=
  if byte = openingByte then 1 else if byte = closingByte then -1 else 0

/-- How many bytes stand in front of the closing brace with which the count comes down to zero: all
of them, if it never does. -/
def scanBytes (count : Int) : List UInt8 → Nat
  | [] => 0
  | byte :: bytes =>
      if byte = closingByte ∧ count + braceStep byte = 0 then 0
      else scanBytes (count + braceStep byte) bytes + 1

def countBraces (count : Int) (bytes : List UInt8) : Int :=
  bytes.foldl (fun count byte => count + braceStep byte) count

def bytesOf (text : List Char) : List UInt8 :=
  text.flatMap String.utf8EncodeChar

/-! ### The count -/

/-- Only a closing brace takes the count down, and with the last one the scan stops. -/
theorem braceStep_pos {count : Int} {byte : UInt8} (positive : 0 < count)
    (goesOn : ¬(byte = closingByte ∧ count + braceStep byte = 0)) :
    0 < count + braceStep byte := by
  by_cases opening : byte = openingByte
  · rw [braceStep, if_pos opening]
    omega
  · by_cases closing : byte = closingByte
    · rw [not_and] at goesOn
      have notZero := goesOn closing
      rw [braceStep, if_neg opening, if_pos closing] at notZero ⊢
      omega
    · rw [braceStep, if_neg opening, if_neg closing]
      omega

/-- The count that a scan comes to is never below zero, up to the byte that stops it. -/
theorem countBraces_nonneg {count : Int} {bytes front : List UInt8} (positive : 0 < count)
    (scanned : front <+: bytes.take (scanBytes count bytes + 1)) :
    0 ≤ countBraces count front := by
  induction bytes generalizing count front with
  | nil =>
      obtain rfl : front = [] := by simpa using scanned
      exact Int.le_of_lt positive
  | cons byte bytes ih =>
      cases front with
      | nil => exact Int.le_of_lt positive
      | cons first front =>
          rw [List.take_succ_cons, List.cons_prefix_cons] at scanned
          obtain ⟨rfl, inRest⟩ := scanned
          rw [countBraces, List.foldl_cons]
          rw [scanBytes] at inRest
          split at inRest
          · next stops =>
              obtain rfl : front = [] := by simpa using inRest
              exact Int.le_of_eq stops.2.symm
          · next goesOn => exact ih (braceStep_pos positive goesOn) inRest

/-! ### Bytes of characters -/

theorem bytesOf_append (first second : List Char) :
    bytesOf (first ++ second) = bytesOf first ++ bytesOf second :=
  List.flatMap_append

theorem bytesOf_cons (c : Char) (text : List Char) :
    bytesOf (c :: text) = String.utf8EncodeChar c ++ bytesOf text :=
  List.flatMap_cons

theorem length_bytesOf (text : List Char) : (bytesOf text).length = String.utf8Len text := by
  induction text with
  | nil => rfl
  | cons c text ih =>
      rw [bytesOf_cons, List.length_append, ih, String.length_utf8EncodeChar, String.utf8Len_cons]
      exact Nat.add_comm _ _

/-- A byte below 0x80 stands for the character with that code and is part of no other encoding. -/
theorem eq_ofNat_of_mem_utf8EncodeChar {c : Char} {byte : UInt8} (ascii : byte.toNat < 0x80)
    (member : byte ∈ String.utf8EncodeChar c) : c.toNat = byte.toNat := by
  have code : c.toNat = c.val.toNat := rfl
  rw [String.utf8EncodeChar.eq_1] at member
  split at member
  · next small =>
      rw [List.mem_singleton.mp member, UInt8.toNat_ofNat', code]
      omega
  · split at member
    · simp only [List.mem_cons, List.not_mem_nil, or_false] at member
      rcases member with rfl | rfl <;> (rw [UInt8.toNat_ofNat'] at ascii; omega)
    · split at member
      · simp only [List.mem_cons, List.not_mem_nil, or_false] at member
        rcases member with rfl | rfl | rfl <;> (rw [UInt8.toNat_ofNat'] at ascii; omega)
      · simp only [List.mem_cons, List.not_mem_nil, or_false] at member
        rcases member with rfl | rfl | rfl | rfl <;> (rw [UInt8.toNat_ofNat'] at ascii; omega)

theorem no_brace_of_mem_utf8EncodeChar {c : Char} {byte : UInt8} (notOpening : c ≠ '{')
    (notClosing : c ≠ '}') (member : byte ∈ String.utf8EncodeChar c) :
    byte ≠ openingByte ∧ byte ≠ closingByte := by
  constructor
  · rintro rfl
    exact notOpening (Char.toNat_inj.mp (eq_ofNat_of_mem_utf8EncodeChar (by decide) member))
  · rintro rfl
    exact notClosing (Char.toNat_inj.mp (eq_ofNat_of_mem_utf8EncodeChar (by decide) member))

/-- Bytes that are no braces are passed over and leave the count as it is. -/
theorem scanBytes_append {plain : List UInt8}
    (noBrace : ∀ byte ∈ plain, byte ≠ openingByte ∧ byte ≠ closingByte) (count : Int)
    (bytes : List UInt8) :
    scanBytes count (plain ++ bytes) = plain.length + scanBytes count bytes := by
  induction plain with
  | nil => simp
  | cons byte plain ih =>
      obtain ⟨⟨notOpening, notClosing⟩, others⟩ := List.forall_mem_cons.mp noBrace
      have same : braceStep byte = 0 := by
        rw [braceStep, if_neg notOpening, if_neg notClosing]
      rw [List.cons_append, scanBytes, if_neg fun stops => notClosing stops.1, same, Int.add_zero,
        ih others, List.length_cons]
      omega

/-- The scan over bytes stops where the scan over characters does. -/
theorem scanBytes_bytesOf (depth : Nat) (text : List Char) :
    scanBytes (depth + 1) (bytesOf text) = (bytesOf (upToClosingBrace depth text)).length := by
  induction text generalizing depth with
  | nil => rfl
  | cons c text ih =>
      rw [bytesOf_cons]
      by_cases opening : c = '{'
      · subst opening
        have encoded : String.utf8EncodeChar '{' = [openingByte] := by decide
        rw [upToClosingBrace_opening, bytesOf_cons, encoded, List.singleton_append, scanBytes,
          if_neg (by simp [openingByte, closingByte])]
        have up : (depth : Int) + 1 + braceStep openingByte = (depth + 1 : Nat) + 1 := by
          simp [braceStep]
        rw [up, ih, List.length_append]
        exact Nat.add_comm _ _
      · by_cases closing : c = '}'
        · subst closing
          have encoded : String.utf8EncodeChar '}' = [closingByte] := by decide
          have down : braceStep closingByte = -1 := by decide
          rw [encoded, List.singleton_append, scanBytes, down]
          cases depth with
          | zero => simp [upToClosingBrace, bytesOf]
          | succ depth =>
              have back : ((depth + 1 : Nat) : Int) + 1 + -1 = depth + 1 := by omega
              rw [back, upToClosingBrace_closing, bytesOf_cons, encoded, if_neg (by omega),
                List.length_append, ← ih depth]
              exact Nat.add_comm _ _
        · rw [upToClosingBrace_other depth opening closing, bytesOf_cons,
            scanBytes_append (fun _ => no_brace_of_mem_utf8EncodeChar opening closing), ih,
            List.length_append]

/-! ### Places in a string -/

theorem toList_toByteArray (source : String) :
    source.toByteArray.data.toList = bytesOf source.toList := by
  rw [← String.utf8Encode_toList, List.utf8Encode, List.data_toByteArray, bytesOf]

theorem utf8ByteSize_eq (source : String) : source.utf8ByteSize = (bytesOf source.toList).length := by
  rw [length_bytesOf, ← String.utf8ByteSize_ofList, String.ofList_toList]

/-- The bytes of a front of a source end between two characters. -/
theorem isValid_of_append {source : String} {front rest : List Char}
    (parts : source.toList = front ++ rest) :
    String.Pos.Raw.IsValid source ⟨(bytesOf front).length⟩ := by
  refine String.Pos.Raw.isValid_iff_exists_append.mpr
    ⟨String.ofList front, String.ofList rest, ?_, ?_⟩
  · rw [← String.ofList_append, ← parts, String.ofList_toList]
  · rw [String.rawEndPos, utf8ByteSize_eq, String.toList_ofList]

/-- What the bytes of some middle part of a source are cut out as. -/
theorem extract_of_append {source : String} {front middle rest : List Char}
    (parts : source.toList = front ++ middle ++ rest) :
    String.Pos.Raw.extract source ⟨(bytesOf front).length⟩
      ⟨(bytesOf front).length + (bytesOf middle).length⟩ = String.ofList middle := by
  rw [length_bytesOf, length_bytesOf, ← String.ofList_toList (s := source), parts]
  exact String.extract_of_valid front middle rest

end PageRoutes.Source
