import Mathlib.Algebra.Group.Int.Defs
import Mathlib.Data.List.TakeWhile

namespace FairMQ.Data

inductive PropertyTree where
  | node (data : String) (children : List (String × PropertyTree))

namespace PropertyTree

def data : PropertyTree → String
  | node data _ => data

def children : PropertyTree → List (String × PropertyTree)
  | node _ children => children

def child? (tree : PropertyTree) (key : String) : Option PropertyTree :=
  tree.children.lookup key

def getChild (tree : PropertyTree) (path : List String) : Option PropertyTree :=
  path.foldlM child? tree

def elements (tree : PropertyTree) (key : String) : List PropertyTree :=
  (tree.children.filter fun child => child.1 == key).flatMap fun child =>
    child.2.children.map Prod.snd

def putChild (key value : String) : List (String × PropertyTree) → List (String × PropertyTree)
  | [] => [(key, node value [])]
  | (first, child) :: rest =>
      if first = key then (first, node value child.children) :: rest
      else (first, child) :: putChild key value rest

def put (tree : PropertyTree) (key value : String) : PropertyTree :=
  node tree.data (putChild key value tree.children)

def addChild (tree : PropertyTree) (key : String) (child : PropertyTree) : PropertyTree :=
  node tree.data (tree.children ++ [(key, child)])

def getString (tree : PropertyTree) (key fallback : String) : String :=
  ((tree.child? key).map data).getD fallback

def isSpace (character : Char) : Bool :=
  character ∈ [' ', '\t', '\n', '\x0b', '\x0c', '\r']

def readSign : List Char → Bool × List Char
  | '-' :: digits => (true, digits)
  | '+' :: digits => (false, digits)
  | digits => (false, digits)

def digitsValue (digits : List Char) : Nat :=
  digits.foldl (fun value digit => 10 * value + (digit.toNat - '0'.toNat)) 0

def readInt (text : String) : Option Int :=
  let (negative, body) := readSign (text.toList.dropWhile isSpace)
  let digits := body.takeWhile Char.isDigit
  let value : Int := if negative then -digitsValue digits else digitsValue digits
  if digits ≠ [] ∧ (body.dropWhile Char.isDigit).all isSpace ∧
      -2 ^ 31 ≤ value ∧ value < 2 ^ 31 then some value
  else none

/-- `get<int>(key, fallback)`: a text that is no number counts as absent. -/
def getInt (tree : PropertyTree) (key : String) (fallback : Int) : Int :=
  ((tree.child? key).bind fun child => readInt child.data).getD fallback

example : readInt " -12 " = some (-12) := by decide

example : readInt "12a" = none := by decide

example : readInt "2147483648" = none := by decide

section Writing

variable (tree : PropertyTree) {key other : String}

theorem child?_put_self (key value : String) :
    ((tree.put key value).child? key).map data = some value := by
  change ((putChild key value tree.children).lookup key).map data = _
  induction tree.children with
  | nil => simp [putChild, data]
  | cons first rest ih =>
      by_cases same : first.1 = key
      · simp [putChild, same, data]
      · have later : (key == first.1) = false := beq_eq_false_iff_ne.mpr (Ne.symm same)
        rw [putChild, if_neg same, List.lookup_cons, later]
        exact ih

theorem child?_put_ne (apart : other ≠ key) (value : String) :
    (tree.put key value).child? other = tree.child? other := by
  change (putChild key value tree.children).lookup other = tree.children.lookup other
  have notKey : (other == key) = false := beq_eq_false_iff_ne.mpr apart
  induction tree.children with
  | nil => simp [putChild, apart]
  | cons first rest ih =>
      by_cases same : first.1 = key
      · rw [putChild, if_pos same, List.lookup_cons, List.lookup_cons, same, notKey]
      · rw [putChild, if_neg same, List.lookup_cons, List.lookup_cons, ih]

theorem elements_put (apart : other ≠ key) (value : String) :
    (tree.put key value).elements other = tree.elements other := by
  have same : (putChild key value tree.children).filter (·.1 == other) =
      tree.children.filter (·.1 == other) := by
    induction tree.children with
    | nil => simp [putChild, apart.symm]
    | cons first rest ih =>
        by_cases isKey : first.1 = key
        · simp [putChild, isKey, apart.symm]
        · rw [putChild, if_neg isKey, List.filter_cons, List.filter_cons, ih]
  exact congrArg (List.flatMap _) same

theorem child?_addChild (apart : other ≠ key) (child : PropertyTree) :
    (tree.addChild key child).child? other = tree.child? other := by
  change (tree.children ++ [(key, child)]).lookup other = tree.children.lookup other
  induction tree.children with
  | nil => simp [apart]
  | cons first rest ih => rw [List.cons_append, List.lookup_cons, List.lookup_cons, ih]

theorem elements_addChild (key : String) (child : PropertyTree) :
    (tree.addChild key child).elements key = tree.elements key ++ child.children.map Prod.snd := by
  change List.flatMap _ ((tree.children ++ [(key, child)]).filter (·.1 == key)) = _
  simp [elements]

end Writing

section Numbers

theorem digits_unsigned (number : Nat) :
    (Nat.toDigits 10 number).dropWhile isSpace = Nat.toDigits 10 number ∧
      readSign (Nat.toDigits 10 number) = (false, Nat.toDigits 10 number) := by
  cases digits : Nat.toDigits 10 number with
  | nil => exact absurd digits Nat.toDigits_ne_nil
  | cons first rest =>
      have isDigit : first.isDigit = true := Nat.isDigit_of_mem_toDigits (by decide : 0 < 10)
        (Nat.le_refl 10) (digits ▸ List.mem_cons_self)
      constructor
      · apply List.dropWhile_cons_of_neg
        intro space
        simp only [isSpace, List.mem_cons, List.not_mem_nil, or_false, decide_eq_true_eq] at space
        rcases space with rfl | rfl | rfl | rfl | rfl | rfl <;> exact absurd isDigit (by decide)
      · unfold readSign
        split
        · exact absurd isDigit (by simp_all)
        · exact absurd isDigit (by simp_all)
        · rfl

theorem readInt_digits {text : String} {negative : Bool} {number : Nat} {value : Int}
    (body : readSign (text.toList.dropWhile isSpace) = (negative, Nat.toDigits 10 number))
    (isValue : value = if negative then -(number : Int) else number)
    (low : -2 ^ 31 ≤ value) (high : value < 2 ^ 31) : readInt text = some value := by
  have digits : ∀ digit ∈ Nat.toDigits 10 number, digit.isDigit = true := fun _ =>
    Nat.isDigit_of_mem_toDigits (by decide) (Nat.le_refl 10)
  have sum : digitsValue (Nat.toDigits 10 number) = number :=
    Nat.ofDigitChars_toDigits (by decide) (Nat.le_refl 10)
  simp only [readInt, body, List.takeWhile_eq_self_iff.mpr digits,
    List.dropWhile_eq_nil_iff.mpr digits, sum, ← isValue]
  exact if_pos ⟨Nat.toDigits_ne_nil, rfl, low, high⟩

theorem readInt_toString {number : Int} (low : -2 ^ 31 ≤ number) (high : number < 2 ^ 31) :
    readInt (toString number) = some number := by
  cases number with
  | ofNat number =>
      have text : (toString (Int.ofNat number)).toList = Nat.toDigits 10 number := by
        change (toString number).toList = _
        rw [Nat.toString_eq_ofList_toDigits, String.toList_ofList]
      obtain ⟨noSpace, noSign⟩ := digits_unsigned number
      exact readInt_digits (by rw [text, noSpace, noSign]) rfl low high
  | negSucc number =>
      have text : (toString (Int.negSucc number)).toList = '-' :: Nat.toDigits 10 (number + 1) := by
        change ("-" ++ toString (number + 1)).toList = _
        simp
      exact readInt_digits (by rw [text]; rfl) rfl low high

end Numbers

end PropertyTree

end FairMQ.Data
