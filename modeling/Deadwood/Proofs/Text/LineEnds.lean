import Deadwood.Proofs.Text.Decoding

namespace Deadwood
namespace Text

/-!
# Changing line ends

The line feeds of a stored text are replaced here, each by a line end of its own choice.  The
lines of the new text need not be those of the old one.  Where a carriage return is put for the
first of two line feeds and the second one stays, the two make up one line end, and the empty
line between them is gone.  What stays the same is the lines that are not empty.  And bytes that
cannot be decoded do not become a text, nor the other way round, because line ends are
characters of a single byte.
-/

/-- The usual ways to end a line. -/
inductive LineEnd where
  | feed
  | carriageReturn
  | both

def LineEnd.bytes : LineEnd → List UInt8
  | .feed => [10]
  | .carriageReturn => [13]
  | .both => [13, 10]

/-- Replace the line feeds among the bytes of a text, the first one by `ends 0`, the next one
by `ends 1`, and so on. -/
def changeEnds (ends : Nat → LineEnd) : List UInt8 → List UInt8
  | [] => []
  | byte :: bytes =>
      if byte = 10 then (ends 0).bytes ++ changeEnds (fun index => ends (index + 1)) bytes
      else byte :: changeEnds ends bytes

/-- The lines of a stored text, without the empty ones. -/
def solidLines? (bytes : List UInt8) : Option (List (List Char)) :=
  (decode? bytes.toByteArray).map (runs isLineEnd)

theorem solidLines?_toList (bytes : ByteArray) :
    solidLines? bytes.data.toList = (decode? bytes).map (runs isLineEnd) := by
  rw [solidLines?, toByteArray_toList]

theorem solidLines?_append_cons {mark : Char} {byte : UInt8}
    (single : String.utf8EncodeChar mark = [byte]) (ending : isLineEnd mark = true)
    (front back : List UInt8) :
    solidLines? (front ++ byte :: back) =
      (solidLines? front).bind fun before => (solidLines? back).map (before ++ ·) := by
  simp only [solidLines?, decode?_append_cons single]
  cases decode? front.toByteArray with
  | none => rfl
  | some before =>
      cases decode? back.toByteArray with
      | none => rfl
      | some after => simp [runs_append_cons before after ending]

/-- Every line end divides the lines before it from those after it. -/
theorem solidLines?_append_bytes_append (mark : LineEnd) (front back : List UInt8) :
    solidLines? (front ++ (mark.bytes ++ back)) =
      (solidLines? front).bind fun before => (solidLines? back).map (before ++ ·) := by
  have feed : String.utf8EncodeChar '\n' = [10] := by decide
  have carriageReturn : String.utf8EncodeChar '\r' = [13] := by decide
  cases mark with
  | feed => exact solidLines?_append_cons feed rfl front back
  | carriageReturn => exact solidLines?_append_cons carriageReturn rfl front back
  | both =>
      -- The line between the two bytes is empty.
      have closed : solidLines? (10 :: back) = solidLines? back := by
        refine (solidLines?_append_cons feed rfl [] back).trans ?_
        change (solidLines? back).map ([] ++ ·) = solidLines? back
        exact Option.map_id_apply
      rw [← closed]
      exact solidLines?_append_cons carriageReturn rfl front (10 :: back)

/-- Whatever line ends are chosen, the lines that are not empty stay the same.  The induction
moves bytes that are no line feeds over to `front`, so each line feed is met with all of its
line before it. -/
theorem solidLines?_append_changeEnds (ends : Nat → LineEnd) (front bytes : List UInt8) :
    solidLines? (front ++ changeEnds ends bytes) = solidLines? (front ++ bytes) := by
  induction bytes generalizing ends front with
  | nil => rfl
  | cons byte bytes ih =>
      by_cases feed : byte = 10
      · have following := ih (fun index => ends (index + 1)) []
        have unchanged := solidLines?_append_bytes_append .feed front bytes
        rw [List.nil_append, List.nil_append] at following
        rw [changeEnds, if_pos feed, solidLines?_append_bytes_append, following, feed]
        exact unchanged.symm
      · have longer := ih ends (front ++ [byte])
        simpa only [changeEnds, if_neg feed, List.append_assoc, List.singleton_append] using longer

/-- Two line ends are chosen, but there is only one in the new text. -/
example : changeEnds (fun index => if index = 0 then .carriageReturn else .feed)
    "a\n\nb".toUTF8.data.toList = "a\r\nb".toUTF8.data.toList := by decide

end Text
end Deadwood
