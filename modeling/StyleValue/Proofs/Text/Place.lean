import StyleValue.Proofs.Text.Encoding
import StyleValue.Proofs.Text.LookBack
import StyleValue.Proofs.Text.Protection

/-! Places in the bytes of a text. A text can be cut at a place that lies between
two characters, and a place is known to lie so by the characters that follow it. -/

namespace StyleValue

/-- Two places, counted in bytes, between which a text can be cut. -/
structure IsCut (text : String) (start stop : Nat) : Prop where
  ordered : start ≤ stop
  bounded : stop ≤ text.utf8ByteSize
  starts : String.Pos.Raw.IsValid text ⟨start⟩
  stops : String.Pos.Raw.IsValid text ⟨stop⟩

theorem isCut_iff {text : String} {start stop : Nat} :
    IsCut text start stop ↔
      start ≤ stop ∧ stop ≤ text.utf8ByteSize ∧
        String.Pos.Raw.IsValid text ⟨start⟩ ∧
        String.Pos.Raw.IsValid text ⟨stop⟩ :=
  ⟨fun cut => ⟨cut.ordered, cut.bounded, cut.starts, cut.stops⟩,
    fun ⟨ordered, bounded, starts, stops⟩ => ⟨ordered, bounded, starts, stops⟩⟩

instance (text : String) (start stop : Nat) :
    Decidable (IsCut text start stop) :=
  decidable_of_iff _ isCut_iff.symm

/-- The characters between two places. -/
def cut? (text : String) (start stop : Nat) : Option (List Char) :=
  if cut : IsCut text start stop then
    some (String.extract (s := text) ⟨⟨start⟩, cut.starts⟩
      ⟨⟨stop⟩, cut.stops⟩).toList
  else none

theorem isSome_cut?_iff {text : String} {start stop : Nat} :
    (cut? text start stop).isSome = true ↔ IsCut text start stop := by
  unfold cut?
  split
  next cut => exact iff_of_true rfl cut
  next noCut => exact iff_of_false Bool.false_ne_true noCut

example : cut? "aé" 0 1 = some ['a'] ∧ cut? "aé" 1 2 = none := by
  decide +kernel

/-! Cutting between characters. -/

theorem toByteArray_eq (text : String) :
    text.toByteArray = (encode text.toList).toByteArray :=
  String.utf8Encode_toList.symm

theorem utf8ByteSize_eq (text : String) :
    text.utf8ByteSize = (encode text.toList).length := by
  rw [String.utf8ByteSize, toByteArray_eq, List.size_toByteArray]

theorem isValid_of_append {text : String} {before after : List Char}
    (whole : text.toList = before ++ after) :
    String.Pos.Raw.IsValid text ⟨(encode before).length⟩ := by
  rw [String.Pos.Raw.isValid_iff_exists_append]
  refine ⟨String.ofList before, String.ofList after, ?_, ?_⟩
  · rw [← String.ofList_append, ← whole, String.ofList_toList]
  · rw [String.rawEndPos, utf8ByteSize_eq, String.toList_ofList]

theorem isCut_of_append {text : String} {before middle after : List Char}
    (whole : text.toList = before ++ (middle ++ after)) :
    IsCut text (encode before).length
      ((encode before).length + (encode middle).length) := by
  refine ⟨Nat.le_add_right .., ?_, isValid_of_append whole, ?_⟩
  · simp only [utf8ByteSize_eq, whole, encode_append, List.length_append]
    omega
  · rw [← List.append_assoc] at whole
    have valid := isValid_of_append whole
    rwa [encode_append, List.length_append] at valid

theorem cut?_of_append {text : String} {before middle after : List Char}
    (whole : text.toList = before ++ (middle ++ after)) :
    cut? text (encode before).length
      ((encode before).length + (encode middle).length) = some middle := by
  have isMiddle : text.toByteArray.extract (encode before).length
      ((encode before).length + (encode middle).length) =
        (encode middle).toByteArray := by
    have size (bytes : List UInt8) : bytes.length = bytes.toByteArray.size :=
      List.size_toByteArray.symm
    have shifted (rest : ByteArray) := ByteArray.extract_append_size_add'
      (b := rest) (i := 0) (j := (encode middle).length) (size (encode before))
    rw [Nat.add_zero] at shifted
    rw [toByteArray_eq, whole, encode_append, encode_append,
      List.toByteArray_append, List.toByteArray_append, shifted,
      ByteArray.extract_append_eq_left (size (encode middle))]
  have isText (piece : String) (bytes : piece.toByteArray =
      (encode middle).toByteArray) : piece.toList = middle := by
    rw [← String.toList_ofList (l := middle), String.toList_inj,
      ← String.toByteArray_inj, bytes, toByteArray_eq, String.toList_ofList]
  rw [cut?, dif_pos (isCut_of_append whole), Option.some_inj]
  apply isText
  rw [String.toByteArray_extract]
  exact isMiddle

namespace Bytes

def ofText (text : String) : List UInt8 :=
  text.toByteArray.data.toList

theorem ofText_eq (text : String) : ofText text = encode text.toList := by
  rw [ofText, toByteArray_eq, List.toList_data_toByteArray]

/-- The place in the bytes of a text right before the characters of `rest`. -/
def IsPlace (text : String) (place : Nat) (rest : List Char) : Prop :=
  ∃ before, text.toList = before ++ rest ∧ place = (encode before).length

namespace IsPlace

variable {text : String} {place : Nat} {first rest : List Char} {c : Char}

theorem drop_eq (isPlace : IsPlace text place rest) :
    (ofText text).drop place = encode rest := by
  obtain ⟨before, whole, rfl⟩ := isPlace
  rw [ofText_eq, whole, encode_append, List.drop_left]

theorem getElem?_eq (isPlace : IsPlace text place rest) :
    (ofText text)[place]? = (encode rest).head? := by
  rw [← List.head?_drop, isPlace.drop_eq]

theorem length_eq (isPlace : IsPlace text place rest) :
    (ofText text).length = place + (encode rest).length := by
  obtain ⟨before, whole, rfl⟩ := isPlace
  rw [ofText_eq, whole, encode_append, List.length_append]

theorem advance (isPlace : IsPlace text place (first ++ rest)) :
    IsPlace text (place + (encode first).length) rest := by
  obtain ⟨before, whole, rfl⟩ := isPlace
  refine ⟨before ++ first, ?_, ?_⟩
  · rw [whole, List.append_assoc]
  · rw [encode_append, List.length_append]

theorem cut?_eq (isPlace : IsPlace text place (first ++ rest)) :
    cut? text place (place + (encode first).length) = some first := by
  obtain ⟨before, whole, rfl⟩ := isPlace
  exact cut?_of_append whole

theorem advance_mark (isPlace : IsPlace text place (c :: rest))
    {byteTest : UInt8 → Bool} {test : Char → Bool}
    (sees : SeesAscii byteTest test) (passes : test c = true) :
    IsPlace text (place + 1) rest := by
  have split : IsPlace text place ([c] ++ rest) := isPlace
  have later := split.advance
  rwa [encode_cons, encode_nil, List.append_nil,
    sees.length_utf8EncodeChar passes] at later

end IsPlace

theorem exists_isPlace {text : String} {place : Nat}
    (isValid : String.Pos.Raw.IsValid text ⟨place⟩) :
    ∃ rest, IsPlace text place rest := by
  obtain ⟨before, rest, rfl, isPlace⟩ :=
    String.Pos.Raw.isValid_iff_exists_append.mp isValid
  refine ⟨rest.toList, before.toList, String.toList_append, ?_⟩
  rw [← utf8ByteSize_eq]
  exact congrArg String.Pos.Raw.byteIdx isPlace

theorem IsPlace.isValid {text : String} {place : Nat} {rest : List Char}
    (isPlace : IsPlace text place rest) :
    String.Pos.Raw.IsValid text ⟨place⟩ := by
  obtain ⟨before, whole, rfl⟩ := isPlace
  exact isValid_of_append whole

/-! Scanning from a place to a closing mark. -/

namespace IsPlace

variable {text : String} {start : Nat} {mark : List Char}
  {scanned : Delimited Char}

theorem closing?_getD (isPlace : IsPlace text start (scanned.textWith mark))
    (ends : scanned.closed = false → scanned.rest = []) :
    (scanned.encode.closing? start).getD (ofText text).length =
      start + (encode scanned.content).length := by
  obtain ⟨content, rest, closed⟩ := scanned
  cases closed with
  | true => rfl
  | false =>
      have atEnd : rest = [] := ends rfl
      rw [isPlace.length_eq, Delimited.textWith, atEnd]
      simp [Delimited.closing?, Delimited.encode]

theorem isSome_closing? (scanned : Delimited Char) (start : Nat) :
    (scanned.encode.closing? start).isSome = scanned.closed := by
  obtain ⟨content, rest, closed⟩ := scanned
  cases closed <;> rfl

theorem cut?_content (isPlace : IsPlace text start (scanned.textWith mark)) :
    cut? text start (start + (encode scanned.content).length) =
      some scanned.content := by
  rw [Delimited.textWith, List.append_assoc] at isPlace
  exact isPlace.cut?_eq

theorem rest (isPlace : IsPlace text start (scanned.textWith mark)) :
    IsPlace text (start + (encode scanned.content).length +
        (encode (if scanned.closed then mark else [])).length)
      scanned.rest := by
  rw [Delimited.textWith, List.append_assoc] at isPlace
  exact isPlace.advance.advance

/-- One byte is added for the mark, but not past the end. -/
theorem rest_min {c : Char} (ascii : c.toNat < 128)
    (isPlace : IsPlace text start (scanned.textWith [c]))
    (ends : scanned.closed = false → scanned.rest = []) :
    IsPlace text
      (min (start + (encode scanned.content).length + 1) (ofText text).length)
      scanned.rest := by
  have later := isPlace.rest
  have bounded := later.length_eq
  cases closed : scanned.closed with
  | true =>
      rw [closed, if_pos rfl, length_encode_singleton ascii] at later bounded
      rwa [Nat.min_eq_left (by omega)]
  | false =>
      rw [closed, ends closed] at later bounded
      have atEnd : (ofText text).length =
          start + (encode scanned.content).length := bounded
      rw [ends closed, Nat.min_eq_right (by omega), atEnd]
      exact later

theorem rest_comment
    (isPlace : IsPlace text start (scanned.textWith ['*', '/']))
    (ends : scanned.closed = false → scanned.rest = []) :
    IsPlace text
      ((scanned.encode.closing? start).elim (ofText text).length (· + 2))
      scanned.rest := by
  have later := isPlace.rest
  have stop := isPlace.closing?_getD ends
  obtain ⟨content, rest, closed⟩ := scanned
  cases closed with
  | true => exact later
  | false =>
      have atEnd : (ofText text).length = start + (encode content).length := stop
      change IsPlace text (ofText text).length rest
      rw [atEnd]
      exact later

end IsPlace

end Bytes

end StyleValue
