/-
This file develops binary codecs whose values can be followed by anything. A
codec carries its own correctness: what it writes it reads back, leaving the
bytes that follow, and what it reads is what it would have written. Two encodings
are therefore never prefixes of one another unless they are of the same value.
Codecs are closed under pairing, optional values, length prefixes and changes of
type, which is all that the Borsh format of a record needs. Records written into
a buffer field by field, at running offsets, come out as the concatenation of
their fields.
-/

import Mathlib.Algebra.Ring.Nat
import Mathlib.Data.Nat.Notation
import Mathlib.Tactic.Common

/-- A prefix codec. `Fits` are the values that have an encoding. -/
structure Codec (Value : Type*) where
  Fits : Value → Prop
  encode : Value → List UInt8
  decode : List UInt8 → Option (Value × List UInt8)
  decode_encode : ∀ value rest, Fits value → decode (encode value ++ rest) = some (value, rest)
  sound : ∀ bytes value rest, decode bytes = some (value, rest) →
    Fits value ∧ bytes = encode value ++ rest

namespace Codec

variable {Value First Second : Type*}

/-- The bytes that decode to a value are its encoding, followed by anything. -/
theorem decode_eq_some {codec : Codec Value} {bytes rest : List UInt8} {value : Value} :
    codec.decode bytes = some (value, rest) ↔
      codec.Fits value ∧ bytes = codec.encode value ++ rest := by
  constructor
  · exact codec.sound bytes value rest
  · rintro ⟨fits, rfl⟩
    exact codec.decode_encode value rest fits

/-- All values that fit are written in the same number of bytes. -/
def Width (codec : Codec Value) (width : ℕ) : Prop :=
  ∀ value, codec.Fits value → (codec.encode value).length = width

/-! ### Little-endian words -/

/-- The low bytes of a number, the lowest first. -/
def littleEndianBytes : ℕ → ℕ → List UInt8
  | 0, _ => []
  | width + 1, value => UInt8.ofNat value :: littleEndianBytes width (value / 256)

/-- The number that the first bytes make, and the bytes behind them. -/
def readLittleEndian : ℕ → List UInt8 → Option (ℕ × List UInt8)
  | 0, bytes => some (0, bytes)
  | _ + 1, [] => none
  | width + 1, byte :: rest =>
    (readLittleEndian width rest).map fun (high, rest) => (byte.toNat + 256 * high, rest)

@[simp] theorem length_littleEndianBytes (width value : ℕ) :
    (littleEndianBytes width value).length = width := by
  induction width generalizing value with
  | zero => rfl
  | succ width inductionHypothesis =>
    rw [littleEndianBytes, List.length_cons, inductionHypothesis]

theorem readLittleEndian_bytes (width : ℕ) {value : ℕ} (fits : value < 256 ^ width)
    (rest : List UInt8) :
    readLittleEndian width (littleEndianBytes width value ++ rest) = some (value, rest) := by
  induction width generalizing value with
  | zero =>
    obtain rfl : value = 0 := by simpa using fits
    rfl
  | succ width inductionHypothesis =>
    have high : value / 256 < 256 ^ width := by
      rw [Nat.pow_succ] at fits
      exact Nat.div_lt_of_lt_mul (by rwa [Nat.mul_comm])
    rw [littleEndianBytes, List.cons_append, readLittleEndian, inductionHypothesis high,
      Option.map_some, UInt8.toNat_ofNat']
    simp only [Option.some.injEq, Prod.mk.injEq, and_true]
    exact Nat.mod_add_div value 256

theorem readLittleEndian_sound (width : ℕ) {bytes rest : List UInt8} {value : ℕ}
    (decoded : readLittleEndian width bytes = some (value, rest)) :
    value < 256 ^ width ∧ bytes = littleEndianBytes width value ++ rest := by
  induction width generalizing bytes value with
  | zero =>
    obtain ⟨rfl, rfl⟩ := Prod.mk.inj (Option.some.inj decoded)
    exact ⟨Nat.one_pos, rfl⟩
  | succ width inductionHypothesis =>
    cases bytes with
    | nil => cases decoded
    | cons byte bytes =>
      rw [readLittleEndian, Option.map_eq_some_iff] at decoded
      obtain ⟨⟨high, _⟩, later, equal⟩ := decoded
      obtain ⟨rfl, rfl⟩ := Prod.mk.inj equal
      obtain ⟨small, rfl⟩ := inductionHypothesis later
      have low := byte.toNat_lt
      have lowPart : (byte.toNat + 256 * high) / 256 = high := by omega
      have wrapped : UInt8.ofNat (byte.toNat + 256 * high) = byte := by
        rw [← UInt8.toNat_inj, UInt8.toNat_ofNat']
        omega
      refine ⟨?_, by rw [littleEndianBytes, wrapped, lowPart, List.cons_append]⟩
      rw [Nat.pow_succ]
      omega

/-- An unsigned word of the given number of bytes. -/
def littleEndian (width : ℕ) : Codec ℕ where
  Fits := fun value => value < 256 ^ width
  encode := littleEndianBytes width
  decode := readLittleEndian width
  decode_encode := fun _ rest fits => readLittleEndian_bytes width fits rest
  sound := fun _ _ _ => readLittleEndian_sound width

/-! ### Combinators -/

/-- Values of another type, through a parser and a printer that undo each other. -/
def via (codec : Codec First) (parse : First → Option Second) (print : Second → First)
    (parse_print : ∀ value, codec.Fits (print value) → parse (print value) = some value)
    (print_parse : ∀ inner value, codec.Fits inner → parse inner = some value →
      print value = inner) : Codec Second where
  Fits := fun value => codec.Fits (print value)
  encode := fun value => codec.encode (print value)
  decode := fun bytes => (codec.decode bytes).bind fun (inner, rest) =>
    (parse inner).map fun value => (value, rest)
  decode_encode := fun value rest fits => by
    simp only [codec.decode_encode _ rest fits, Option.bind_some, parse_print value fits,
      Option.map_some]
  sound := fun bytes value rest decoded => by
    obtain ⟨⟨inner, _⟩, read, parsed⟩ := Option.bind_eq_some_iff.mp decoded
    obtain ⟨_, accepted, equal⟩ := Option.map_eq_some_iff.mp parsed
    obtain ⟨rfl, rfl⟩ := Prod.mk.inj equal
    obtain ⟨fits, rfl⟩ := codec.sound _ _ _ read
    rw [print_parse inner _ fits accepted]
    exact ⟨fits, rfl⟩

/-- Values of a type with the same content. -/
def iso (codec : Codec First) (forward : First → Second) (backward : Second → First)
    (forward_backward : ∀ value, forward (backward value) = value)
    (backward_forward : ∀ inner, backward (forward inner) = inner) : Codec Second :=
  codec.via (fun inner => some (forward inner)) backward
    (fun value _ => congrArg some (forward_backward value))
    (fun inner _ _ parsed => (congrArg backward (Option.some.inj parsed).symm).trans
      (backward_forward inner))

/-- One value after the other. -/
def pair (first : Codec First) (second : Codec Second) : Codec (First × Second) where
  Fits := fun value => first.Fits value.1 ∧ second.Fits value.2
  encode := fun value => first.encode value.1 ++ second.encode value.2
  decode := fun bytes => (first.decode bytes).bind fun (left, rest) =>
    (second.decode rest).map fun (right, rest) => ((left, right), rest)
  decode_encode := fun value rest fits => by
    simp only [List.append_assoc, first.decode_encode _ _ fits.1, Option.bind_some,
      second.decode_encode _ _ fits.2, Option.map_some]
  sound := fun bytes value rest decoded => by
    obtain ⟨⟨left, between⟩, readLeft, later⟩ := Option.bind_eq_some_iff.mp decoded
    obtain ⟨⟨right, _⟩, readRight, equal⟩ := Option.map_eq_some_iff.mp later
    obtain ⟨rfl, rfl⟩ := Prod.mk.inj equal
    obtain ⟨fitsLeft, rfl⟩ := first.sound _ _ _ readLeft
    obtain ⟨fitsRight, rfl⟩ := second.sound _ _ _ readRight
    exact ⟨⟨fitsLeft, fitsRight⟩, (List.append_assoc _ _ _).symm⟩

theorem Width.pair {first : Codec First} {second : Codec Second} {width width' : ℕ}
    (left : first.Width width) (right : second.Width width') :
    (first.pair second).Width (width + width') := by
  intro value fits
  show (first.encode value.1 ++ second.encode value.2).length = _
  rw [List.length_append, left _ fits.1, right _ fits.2]

/-- A tag byte, 0 for no value and 1 for a value that follows. -/
def option (codec : Codec Value) : Codec (Option Value) where
  Fits := fun value => ∀ inner, value = some inner → codec.Fits inner
  encode := fun value => match value with
    | none => [0]
    | some inner => 1 :: codec.encode inner
  decode := fun bytes => match bytes with
    | [] => none
    | tag :: rest =>
      if tag = 0 then some (none, rest)
      else if tag = 1 then (codec.decode rest).map fun (inner, rest) => (some inner, rest)
      else none
  decode_encode := fun value rest fits => by
    cases value with
    | none => rfl
    | some inner =>
      show (codec.decode (codec.encode inner ++ rest)).map _ = _
      rw [codec.decode_encode inner rest (fits inner rfl), Option.map_some]
  sound := fun bytes value rest decoded => by
    cases bytes with
    | nil => cases decoded
    | cons tag bytes =>
      simp only at decoded
      split_ifs at decoded with absent present
      · obtain ⟨rfl, rfl⟩ := Prod.mk.inj (Option.some.inj decoded)
        exact ⟨fun _ equal => absurd equal.symm (Option.some_ne_none _), by rw [absent]; rfl⟩
      · obtain ⟨⟨inner, _⟩, read, equal⟩ := Option.map_eq_some_iff.mp decoded
        obtain ⟨rfl, rfl⟩ := Prod.mk.inj equal
        obtain ⟨fits, rfl⟩ := codec.sound _ _ _ read
        exact ⟨fun _ same => Option.some.inj same ▸ fits, by rw [present, List.cons_append]⟩

theorem fits_none {codec : Codec Value} : codec.option.Fits none :=
  fun _ equal => nomatch equal

/-- Bytes after their length, itself a word of the given width. -/
def prefixed (width : ℕ) : Codec (List UInt8) where
  Fits := fun value => value.length < 256 ^ width
  encode := fun value => littleEndianBytes width value.length ++ value
  decode := fun bytes => (readLittleEndian width bytes).bind fun (length, rest) =>
    if length ≤ rest.length then some (rest.take length, rest.drop length) else none
  decode_encode := fun value rest fits => by
    rw [List.append_assoc, readLittleEndian_bytes width fits, Option.bind_some]
    simp only [List.length_append, Nat.le_add_right, if_true, List.take_left, List.drop_left]
  sound := fun bytes value rest decoded => by
    obtain ⟨⟨length, between⟩, read, later⟩ := Option.bind_eq_some_iff.mp decoded
    simp only [Option.ite_none_right_eq_some, Option.some.injEq, Prod.mk.injEq] at later
    obtain ⟨enough, rfl, rfl⟩ := later
    obtain ⟨small, rfl⟩ := readLittleEndian_sound width read
    rw [List.length_take, Nat.min_eq_left enough, List.append_assoc, List.take_append_drop]
    exact ⟨small, rfl⟩

/-! ### Scalars -/

/-- One byte. -/
def u8 : Codec UInt8 :=
  (littleEndian 1).via (fun value => some (UInt8.ofNat value)) UInt8.toNat
    (fun value _ => by rw [UInt8.ofNat_toNat])
    (fun inner value fits parsed => by
      rw [← Option.some.inj parsed, UInt8.toNat_ofNat',
        Nat.mod_eq_of_lt (show inner < 2 ^ 8 from fits)])

/-- Two bytes. -/
def u16 : Codec UInt16 :=
  (littleEndian 2).via (fun value => some (UInt16.ofNat value)) UInt16.toNat
    (fun value _ => by rw [UInt16.ofNat_toNat])
    (fun inner value fits parsed => by
      rw [← Option.some.inj parsed, UInt16.toNat_ofNat',
        Nat.mod_eq_of_lt (show inner < 2 ^ 16 from fits)])

/-- Eight bytes. -/
def u64 : Codec UInt64 :=
  (littleEndian 8).via (fun value => some (UInt64.ofNat value)) UInt64.toNat
    (fun value _ => by rw [UInt64.ofNat_toNat])
    (fun inner value fits parsed => by
      rw [← Option.some.inj parsed, UInt64.toNat_ofNat',
        Nat.mod_eq_of_lt (show inner < 2 ^ 64 from fits)])

/-- Two's complement. -/
def i64 : Codec Int64 :=
  u64.iso UInt64.toInt64 Int64.toUInt64 (fun _ => rfl) (fun _ => rfl)

/-- One byte, 0 or 1 and nothing else. -/
def bool : Codec Bool :=
  u8.via (fun byte => if byte = 0 then some false else if byte = 1 then some true else none)
    (fun value => if value then 1 else 0)
    (fun value _ => by cases value <;> rfl)
    (fun inner value _ parsed => by
      split_ifs at parsed with no yes
      · rw [← Option.some.inj parsed, no]
        rfl
      · rw [← Option.some.inj parsed, yes]
        rfl)

theorem fits_u8 (word : UInt8) : u8.Fits word := word.toNat_lt

theorem fits_u16 (word : UInt16) : u16.Fits word := word.toNat_lt

theorem fits_u64 (word : UInt64) : u64.Fits word := word.toNat_lt

theorem fits_i64 (word : Int64) : i64.Fits word := fits_u64 _

theorem fits_bool (value : Bool) : bool.Fits value := fits_u8 _

theorem toByteArray_toList (bytes : ByteArray) : bytes.data.toList.toByteArray = bytes :=
  ByteArray.ext (Array.toList_inj.mp List.toList_data_toByteArray)

/-- The text that the bytes encode, when they are well formed. -/
def parseText (bytes : List UInt8) : Option String := String.fromUTF8? bytes.toByteArray

/-- The bytes of a text. -/
def printText (value : String) : List UInt8 := value.toByteArray.data.toList

theorem parseText_eq_some {bytes : List UInt8} {value : String} :
    parseText bytes = some value ↔ printText value = bytes := by
  rw [parseText, String.fromUTF8?, Option.dite_none_right_eq_some]
  constructor
  · rintro ⟨_, equal⟩
    rw [← Option.some.inj equal]
    exact List.toList_data_toByteArray
  · rintro rfl
    have back : (printText value).toByteArray = value.toByteArray := toByteArray_toList _
    refine ⟨back ▸ value.isValidUTF8, congrArg some (String.toByteArray_inj.mp back)⟩

/-- UTF-8 text after its length in bytes. -/
def text (width : ℕ) : Codec String :=
  (prefixed width).via parseText printText (fun _ _ => parseText_eq_some.mpr rfl)
    (fun _ _ _ parsed => parseText_eq_some.mp parsed)

/-! ### Buffers -/

/-- Write bytes into a buffer at an offset; nothing can be written past its end. -/
def write (buffer : List UInt8) (offset : ℕ) (bytes : List UInt8) : Option (List UInt8) :=
  if offset + bytes.length ≤ buffer.length then
    some (buffer.take offset ++ bytes ++ buffer.drop (offset + bytes.length))
  else none

/-- Write fields one after the other, each advancing the offset by its declared width. -/
def writeFields (buffer : List UInt8) (offset : ℕ) : List (ℕ × List UInt8) → Option (List UInt8)
  | [] => some buffer
  | (width, bytes) :: fields =>
    (write buffer offset bytes).bind fun buffer => writeFields buffer (offset + width) fields

/-- A word read out of a buffer at an offset. -/
def readWord (width : ℕ) (buffer : List UInt8) (offset : ℕ) : Option ℕ :=
  (readLittleEndian width (buffer.drop offset)).map Prod.fst

theorem write_append (done blank bytes : List UInt8) (room : bytes.length ≤ blank.length) :
    write (done ++ blank) done.length bytes = some (done ++ bytes ++ blank.drop bytes.length) := by
  have fits : done.length + bytes.length ≤ (done ++ blank).length := by
    rw [List.length_append]
    exact Nat.add_le_add_left room _
  rw [write, if_pos fits, List.take_left, List.drop_append, List.drop_eq_nil_of_le (by omega),
    Nat.add_sub_cancel_left, List.nil_append]

/-- Fields of their declared widths fill a buffer of their total width with their concatenation.
The induction is on the fields, with the bytes already written generalised. -/
theorem writeFields_eq (fields : List (ℕ × List UInt8)) (done blank : List UInt8)
    (widths : ∀ field ∈ fields, field.2.length = field.1)
    (total : blank.length = (fields.map Prod.fst).sum) :
    writeFields (done ++ blank) done.length fields =
      some (done ++ (fields.map Prod.snd).flatten) := by
  induction fields generalizing done blank with
  | nil =>
    obtain rfl := List.length_eq_zero_iff.mp total
    rfl
  | cons field fields inductionHypothesis =>
    obtain ⟨width, bytes⟩ := field
    obtain rfl : bytes.length = width := widths _ List.mem_cons_self
    rw [List.map_cons, List.sum_cons] at total
    have left : (blank.drop bytes.length).length = (fields.map Prod.fst).sum := by
      rw [List.length_drop, total, Nat.add_sub_cancel_left]
    have later := inductionHypothesis (done ++ bytes) (blank.drop bytes.length)
      (fun other member => widths other (List.mem_cons_of_mem _ member)) left
    rw [List.length_append] at later
    rw [writeFields, write_append done blank bytes (total ▸ Nat.le_add_right _ _), Option.bind_some,
      later, List.map_cons, List.flatten_cons, List.append_assoc]

theorem readWord_littleEndian {width value : ℕ} (fits : value < 256 ^ width)
    (before after : List UInt8) :
    readWord width (before ++ (littleEndianBytes width value ++ after)) before.length =
      some value := by
  rw [readWord, List.drop_left, readLittleEndian_bytes width fits, Option.map_some]

end Codec
