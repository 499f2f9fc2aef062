import CardAccess.Tlv.Length

/-!
# Element trees

An element is a tag with a value: raw bytes, or a list of elements.  Which of
the two it is does not depend on the tag here, because an element may be built
with any tag; `WellFormed` says that the tag agrees with the content everywhere,
along with the other conditions under which the encoding reads back.
-/

namespace CardAccess

/-- An element: a tag and raw bytes, or a tag and the elements inside. -/
inductive Tlv where
  | primitive (tag : Tlv.Tag) (value : Bytes)
  | constructed (tag : Tlv.Tag) (children : List Tlv)
  deriving Repr

namespace Tlv

mutual

def decEq : (s t : Tlv) → Decidable (s = t)
  | .primitive s v, .primitive t w =>
    if h : s = t ∧ v = w then isTrue (by rw [h.1, h.2]) else isFalse (by simpa using h)
  | .constructed s cs, .constructed t ds =>
    if hst : s = t then
      match decEqAll cs ds with
      | isTrue h => isTrue (by rw [hst, h])
      | isFalse h => isFalse (by simp [h])
    else isFalse (by simp [hst])
  | .primitive _ _, .constructed _ _ => isFalse (by simp)
  | .constructed _ _, .primitive _ _ => isFalse (by simp)

def decEqAll : (ss ts : List Tlv) → Decidable (ss = ts)
  | [], [] => isTrue rfl
  | [], _ :: _ => isFalse (by simp)
  | _ :: _, [] => isFalse (by simp)
  | s :: ss, t :: ts =>
    match decEq s t with
    | isFalse h => isFalse (by simp [h])
    | isTrue h =>
      match decEqAll ss ts with
      | isTrue h' => isTrue (by rw [h, h'])
      | isFalse h' => isFalse (by simp [h'])

end

instance : DecidableEq Tlv := decEq

def tag : Tlv → Tag
  | .primitive t _ => t
  | .constructed t _ => t

def isConstructed : Tlv → Bool
  | .primitive _ _ => false
  | .constructed _ _ => true

/-- The elements inside, none for raw content. -/
def children : Tlv → List Tlv
  | .primitive _ _ => []
  | .constructed _ cs => cs

/-- The bytes of an element whose value has the bytes `value`. -/
def frame (tag : Tag) (value : Bytes) : Bytes :=
  tag.toBytes ++ (Length.encode value.length ++ value)

mutual

def encode : Tlv → Bytes
  | .primitive t v => frame t v
  | .constructed t cs => frame t (encodeAll cs)

def encodeAll : List Tlv → Bytes
  | [] => []
  | c :: cs => encode c ++ encodeAll cs

end

def value : Tlv → Bytes
  | .primitive _ v => v
  | .constructed _ cs => encodeAll cs

mutual

/-- The number of bytes of an element, without writing it. -/
def encodedLength : Tlv → Nat
  | .primitive t v => t.length + Length.fieldLength v.length + v.length
  | .constructed t cs =>
    t.length + Length.fieldLength (encodedLengthAll cs) + encodedLengthAll cs

def encodedLengthAll : List Tlv → Nat
  | [] => 0
  | c :: cs => encodedLength c + encodedLengthAll cs

end

def valueLength : Tlv → Nat
  | .primitive _ v => v.length
  | .constructed _ cs => encodedLengthAll cs

mutual

/-- The number of levels, one for raw content. -/
def levels : Tlv → Nat
  | .primitive _ _ => 1
  | .constructed _ cs => levelsAll cs + 1

def levelsAll : List Tlv → Nat
  | [] => 0
  | c :: cs => max (levels c) (levelsAll cs)

end

mutual

/-- Every tag in the element can be read back and agrees with its content, and
every value is shorter than `2 ^ 32` bytes. -/
def Regular : Tlv → Prop
  | .primitive t v => t.Decodable ∧ t.isConstructed = false ∧ v.length < 2 ^ 32
  | .constructed t cs =>
    t.Decodable ∧ t.isConstructed = true ∧ encodedLengthAll cs < 2 ^ 32 ∧ RegularAll cs

def RegularAll : List Tlv → Prop
  | [] => True
  | c :: cs => Regular c ∧ RegularAll cs

end

/-- The deepest nesting that is read, counting elements with raw content. -/
def maxLevels : Nat := 32

/-- The elements whose encoding reads back. -/
def WellFormed (t : Tlv) : Prop := Regular t ∧ t.levels ≤ maxLevels

mutual

/-- One line per element, children indented by two more blanks. -/
def lines (depth : Nat) : Tlv → List String
  | .primitive t v =>
    [String.ofList (List.replicate (depth * 2) ' ') ++ t.display ++ " [" ++ toString v.length
      ++ "] " ++ Hex.encodeUpper v ++ "\n"]
  | .constructed t cs =>
    (String.ofList (List.replicate (depth * 2) ' ') ++ t.display ++ " ["
      ++ toString (encodedLengthAll cs) ++ "]\n") :: linesAll (depth + 1) cs

def linesAll (depth : Nat) : List Tlv → List String
  | [] => []
  | c :: cs => lines depth c ++ linesAll depth cs

end

def display (t : Tlv) : String := String.join (lines 0 t)

end Tlv
end CardAccess
