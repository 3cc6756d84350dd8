import Deadwood.Proofs.Text.Runs

namespace Deadwood
namespace Text

/-!
# Decoding at a cut

Decoding goes through the bytes of a text from the left, and it fails as a whole if any part
of them is not UTF-8.  Still it can be done piece by piece, as long as the bytes are cut at a
character that takes a single byte.  Such a byte does not occur within the bytes of any other
character.  So a text is well stored exactly if the pieces on both sides of the cut are, and
neither piece can make up for what is wrong with the other.

For the same reason it makes no difference whether a stored text is cut at such characters
before or after it is decoded.
-/

/-! ## Storing -/

@[simp] theorem encode_nil : encode [] = [] :=
  rfl

@[simp] theorem encode_append (text more : List Char) :
    encode (text ++ more) = encode text ++ encode more :=
  List.flatMap_append

theorem encode_cons (c : Char) (text : List Char) :
    encode (c :: text) = String.utf8EncodeChar c ++ encode text :=
  List.flatMap_cons

@[simp] theorem encode_eq_nil_iff {text : List Char} : encode text = [] ↔ text = [] := by
  cases text with
  | nil => simp
  | cons c text => simp [encode_cons]

theorem toByteArray_toList (bytes : ByteArray) : bytes.data.toList.toByteArray = bytes := by
  apply ByteArray.ext
  rw [List.data_toByteArray, Array.toArray_toList]

theorem toList_toUTF8 (text : String) : text.toUTF8.data.toList = encode text.toList := by
  rw [String.toUTF8_eq_toByteArray, ← String.utf8Encode_toList]
  exact List.toList_data_toByteArray

theorem decode?_toByteArray_eq_some_iff {bytes : List UInt8} {text : List Char} :
    decode? bytes.toByteArray = some text ↔ bytes = encode text := by
  rw [← List.toByteArray_inj, decode?, Option.map_eq_some_iff]
  change _ ↔ bytes.toByteArray = text.utf8Encode
  constructor
  · rintro ⟨stored, read, rfl⟩
    rw [String.fromUTF8?, Option.dite_none_right_eq_some] at read
    rcases read with ⟨valid, same⟩
    rw [String.utf8Encode_toList, ← Option.some.inj same]
    rfl
  · intro same
    refine ⟨String.ofList text, ?_, String.toList_ofList⟩
    have valid : bytes.toByteArray.IsValidUTF8 := ⟨text, same⟩
    rw [String.fromUTF8?, dif_pos valid, Option.some.injEq, ← String.toByteArray_inj,
      String.toByteArray_ofList]
    exact same

theorem decode?_eq_some_iff {bytes : ByteArray} {text : List Char} :
    decode? bytes = some text ↔ bytes.data.toList = encode text := by
  rw [← decode?_toByteArray_eq_some_iff, toByteArray_toList]

/-- Different texts are stored differently. -/
theorem encode_inj {text other : List Char} : encode text = encode other ↔ text = other := by
  constructor
  · intro same
    have read := decode?_toByteArray_eq_some_iff.mpr same
    rw [decode?_toByteArray_eq_some_iff.mpr rfl] at read
    exact Option.some.inj read
  · exact congrArg encode

/-! ## Characters of a single byte -/

/-- A byte that stands for a character of its own occurs in no other character: it is a first
byte, and decoding is settled by it. -/
theorem eq_of_mem_utf8EncodeChar {mark c : Char} {byte : UInt8}
    (single : String.utf8EncodeChar mark = [byte])
    (member : byte ∈ String.utf8EncodeChar c) : c = mark := by
  have leading : byte.IsUTF8FirstByte := by
    have first := UInt8.isUTF8FirstByte_getElem_zero_utf8EncodeChar (c := mark)
    simp only [single] at first
    exact first
  rcases List.getElem_of_mem member with ⟨index, bound, found⟩
  have front : index = 0 := by
    apply UInt8.isUTF8FirstByte_getElem_utf8EncodeChar.mp
    rw [found]
    exact leading
  subst front
  have shape : String.utf8EncodeChar c =
      String.utf8EncodeChar mark ++ (String.utf8EncodeChar c).tail := by
    rw [single, ← found, ← List.head_eq_getElem]
    exact (List.cons_head_tail String.utf8EncodeChar_ne_nil).symm
  have begins : [mark].utf8Encode ++ (String.utf8EncodeChar c).tail.toByteArray =
      [c].utf8Encode := by
    rw [List.utf8Encode_singleton, List.utf8Encode_singleton, ← List.toByteArray_append, ← shape]
  exact (List.cons_prefix_cons.mp
    (List.isPrefix_of_utf8Encode_append_eq_utf8Encode _ begins)).1.symm

/-- Where the byte of such a character is found, the character itself stands in the text. -/
theorem exists_of_encode_eq_append_cons {mark : Char} {byte : UInt8}
    (single : String.utf8EncodeChar mark = [byte]) {text : List Char} {front back : List UInt8}
    (same : encode text = front ++ byte :: back) :
    ∃ before after, text = before ++ mark :: after ∧ front = encode before ∧
      back = encode after := by
  induction text generalizing front with
  | nil => simp at same
  | cons c text ih =>
      rw [encode_cons] at same
      rcases List.append_eq_append_iff.mp same with ⟨rest, rfl, later⟩ | ⟨overlap, stored, rest⟩
      · rcases ih later with ⟨before, after, rfl, rfl, rfl⟩
        exact ⟨c :: before, after, rfl, rfl, rfl⟩
      · -- The byte stands right after `c` or is among the bytes of `c`.
        cases overlap with
        | nil =>
            have later : encode text = [] ++ byte :: back := rest.symm
            rcases ih later with ⟨before, after, rfl, nothing, rfl⟩
            refine ⟨c :: before, after, rfl, ?_, rfl⟩
            rw [List.append_nil] at stored
            rw [encode_cons, ← nothing, stored, List.append_nil]
        | cons first overlap =>
            rcases List.cons.inj rest with ⟨rfl, following⟩
            have marked : c = mark :=
              eq_of_mem_utf8EncodeChar single (by rw [stored]; simp)
            subst marked
            rw [single, eq_comm, List.append_eq_singleton_iff] at stored
            rcases stored with ⟨rfl, alone⟩ | ⟨_, empty⟩
            · cases alone
              exact ⟨[], text, rfl, rfl, following⟩
            · cases empty

/-- A stored word that begins with such a character is found in the text as well. -/
theorem exists_of_encode_eq_append_encode {mark : Char} {byte : UInt8}
    (single : String.utf8EncodeChar mark = [byte]) {text word : List Char}
    {front back : List UInt8} (same : encode text = front ++ (encode (mark :: word) ++ back)) :
    ∃ before after, text = before ++ (mark :: word ++ after) ∧ front = encode before ∧
      back = encode after := by
  rw [encode_cons, single, List.append_assoc, List.singleton_append] at same
  rcases exists_of_encode_eq_append_cons single same with ⟨before, rest, rfl, rfl, stored⟩
  have begins : word <+: rest := by
    apply List.isPrefix_of_utf8Encode_append_eq_utf8Encode back.toByteArray
    change (encode word).toByteArray ++ back.toByteArray = (encode rest).toByteArray
    rw [← List.toByteArray_append, stored]
  rcases begins with ⟨after, rfl⟩
  rw [encode_append, List.append_cancel_left_eq] at stored
  exact ⟨before, after, rfl, rfl, stored⟩

/-- Bytes may be decoded on both sides of a character that takes a single byte. -/
theorem decode?_append_cons {mark : Char} {byte : UInt8}
    (single : String.utf8EncodeChar mark = [byte]) (front back : List UInt8) :
    decode? (front ++ byte :: back).toByteArray =
      (decode? front.toByteArray).bind fun before =>
        (decode? back.toByteArray).map fun after => before ++ mark :: after := by
  ext text
  simp only [Option.bind_eq_some_iff, Option.map_eq_some_iff, decode?_toByteArray_eq_some_iff]
  constructor
  · intro same
    rcases exists_of_encode_eq_append_cons single same.symm with ⟨before, after, rfl, rfl, rfl⟩
    exact ⟨before, rfl, after, rfl, rfl⟩
  · rintro ⟨before, rfl, after, rfl, rfl⟩
    rw [encode_append, encode_cons, single, List.singleton_append]

/-- Pieces that are closed by such a character are decoded one by one. -/
theorem flatMap_concat_eq_encode_iff {mark : Char} {byte : UInt8}
    (single : String.utf8EncodeChar mark = [byte]) {stored : List (List UInt8)}
    {text : List Char} :
    stored.flatMap (· ++ [byte]) = encode text ↔
      ∃ texts : List (List Char), stored = texts.map encode ∧
        text = texts.flatMap (· ++ [mark]) := by
  constructor
  · intro same
    induction stored generalizing text with
    | nil => exact ⟨[], rfl, encode_eq_nil_iff.mp same.symm⟩
    | cons first stored ih =>
        rw [List.flatMap_cons, List.append_assoc, List.singleton_append] at same
        rcases exists_of_encode_eq_append_cons single same.symm with ⟨before, after, rfl, rfl, rest⟩
        rcases ih rest with ⟨texts, rfl, rfl⟩
        exact ⟨before :: texts, rfl, by simp⟩
  · rintro ⟨texts, rfl, rfl⟩
    induction texts with
    | nil => rfl
    | cons first texts ih =>
        rw [List.map_cons, List.flatMap_cons, ih, List.flatMap_cons, encode_append, encode_append,
          encode_cons, single, encode_nil, List.append_nil]

/-! ## Cutting before and after decoding -/

/-- Each character of the class `divides` is stored as one byte of the class `divider`, and no
other character has such a byte. -/
structure StoredBy (divides : Char → Bool) (divider : UInt8 → Bool) : Prop where
  single : ∀ c, divides c = true →
    ∃ byte, String.utf8EncodeChar c = [byte] ∧ divider byte = true
  apart : ∀ c, divides c = false → ∀ byte ∈ String.utf8EncodeChar c, divider byte = false

theorem storedBy_of_single {mark : Char} {byte : UInt8}
    (single : String.utf8EncodeChar mark = [byte]) : StoredBy (· == mark) (· == byte) := by
  constructor
  · intro c same
    cases beq_iff_eq.mp same
    exact ⟨byte, single, beq_self_eq_true byte⟩
  · intro c different other member
    apply beq_eq_false_iff_ne.mpr
    rintro rfl
    exact beq_eq_false_iff_ne.mp different (eq_of_mem_utf8EncodeChar single member)

theorem StoredBy.or {first second : Char → Bool} {firstByte secondByte : UInt8 → Bool}
    (one : StoredBy first firstByte) (two : StoredBy second secondByte) :
    StoredBy (fun c => first c || second c) (fun byte => firstByte byte || secondByte byte) := by
  constructor
  · intro c divided
    rcases Bool.or_eq_true_iff.mp divided with left | right
    · rcases one.single c left with ⟨byte, stored, divides⟩
      exact ⟨byte, stored, Bool.or_eq_true_iff.mpr (.inl divides)⟩
    · rcases two.single c right with ⟨byte, stored, divides⟩
      exact ⟨byte, stored, Bool.or_eq_true_iff.mpr (.inr divides)⟩
  · intro c undivided byte member
    rcases Bool.or_eq_false_iff.mp undivided with ⟨left, right⟩
    exact Bool.or_eq_false_iff.mpr ⟨one.apart c left byte member, two.apart c right byte member⟩

theorem splitOnP_append_of_undivided {α : Type} {divides : α → Bool} {front : List α}
    (undivided : ∀ c ∈ front, divides c = false) (text : List α) :
    (front ++ text).splitOnP divides = (text.splitOnP divides).modifyHead (front ++ ·) := by
  induction front with
  | nil => exact (congrFun List.modifyHead_id _).symm
  | cons c front ih =>
      rcases List.forall_mem_cons.mp undivided with ⟨first, following⟩
      rw [List.cons_append, List.splitOnP_cons_eq_if_modifyHead, first, ih following,
        if_neg Bool.false_ne_true, List.modifyHead_modifyHead]
      rfl

/-- The pieces of a stored text are its pieces, stored. -/
theorem splitOnP_encode {divides : Char → Bool} {divider : UInt8 → Bool}
    (classes : StoredBy divides divider) (text : List Char) :
    (encode text).splitOnP divider = (text.splitOnP divides).map encode := by
  induction text with
  | nil => rfl
  | cons c text ih =>
      rw [encode_cons, List.splitOnP_cons_eq_if_modifyHead]
      cases divided : divides c with
      | true =>
          rcases classes.single c divided with ⟨byte, stored, divides⟩
          rw [stored, List.singleton_append, List.splitOnP_cons_eq_if_modifyHead, if_pos divides,
            if_pos rfl, ih]
          rfl
      | false =>
          rw [splitOnP_append_of_undivided (classes.apart c divided), ih,
            if_neg Bool.false_ne_true]
          cases text.splitOnP divides with
          | nil => rfl
          | cons first others => rfl

theorem runs_encode {divides : Char → Bool} {divider : UInt8 → Bool}
    (classes : StoredBy divides divider) (text : List Char) :
    runs divider (encode text) = (runs divides text).map encode := by
  rw [runs, splitOnP_encode classes, List.filter_map, runs]
  congr 2
  funext piece
  simp

end Text
end Deadwood
