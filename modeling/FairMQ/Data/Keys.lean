import Mathlib.Data.List.Basic
import Mathlib.Data.List.TakeWhile

namespace FairMQ.Data

theorem digits_free {separator : Char} (notDigit : separator.isDigit = false) (number : Nat) :
    separator ∉ (toString number).toList := by
  rw [Nat.toString_eq_ofList_toDigits, String.toList_ofList]
  intro member
  have digit := Nat.isDigit_of_mem_toDigits (by decide : 0 < 10) (Nat.le_refl 10) member
  simp [notDigit] at digit

theorem sign_digits_free {separator : Char} (notDigit : separator.isDigit = false)
    (notSign : separator ≠ '-') (number : Int) : separator ∉ (toString number).toList := by
  cases number with
  | ofNat number => exact digits_free notDigit number
  | negSucc number =>
      change separator ∉ ("-" ++ toString (number + 1)).toList
      rw [String.toList_append, List.mem_append, not_or]
      exact ⟨by simpa using notSign, digits_free notDigit (number + 1)⟩

theorem toString_injective {number other : Nat} (same : toString number = toString other) :
    number = other := by
  have digits := congrArg (fun text => Nat.ofDigitChars 10 text.toList 0) same
  simpa [Nat.toString_eq_ofList_toDigits] using digits

theorem first_cut_injective {α : Type} {separator : α} {front front' back back' : List α}
    (free : separator ∉ front) (free' : separator ∉ front')
    (same : front ++ separator :: back = front' ++ separator :: back') :
    front = front' ∧ back = back' := by
  induction front generalizing front' with
  | nil =>
      cases front' with
      | nil => exact ⟨rfl, (List.cons.inj same).2⟩
      | cons head tail => exact absurd ((List.cons.inj same).1 ▸ List.mem_cons_self) free'
  | cons head tail ih =>
      cases front' with
      | nil => exact absurd ((List.cons.inj same).1 ▸ List.mem_cons_self) free
      | cons head' tail' =>
          simp only [List.cons_append, List.cons.injEq] at same
          simp only [List.mem_cons, not_or] at free free'
          obtain ⟨tails, backs⟩ := ih free.2 free'.2 same.2
          exact ⟨by rw [same.1, tails], backs⟩

theorem takeWhile_cut {α : Type} [DecidableEq α] {separator : α} {front : List α}
    (free : separator ∉ front) (back : List α) :
    (front ++ separator :: back).takeWhile (· ≠ separator) = front := by
  rw [List.takeWhile_append_of_pos, List.takeWhile_cons_of_neg, List.append_nil]
  · simp
  · intro item member
    simpa using ne_of_mem_of_not_mem member free

theorem dropWhile_cut {α : Type} [DecidableEq α] {separator : α} {front : List α}
    (free : separator ∉ front) (back : List α) :
    (front ++ separator :: back).dropWhile (· ≠ separator) = separator :: back := by
  rw [List.dropWhile_append_of_pos, List.dropWhile_cons_of_neg]
  · simp
  · intro item member
    simpa using ne_of_mem_of_not_mem member free

theorem takeWhile_uncut {α : Type} [DecidableEq α] {separator : α} {text : List α}
    (free : separator ∉ text) : text.takeWhile (· ≠ separator) = text := by
  apply List.takeWhile_eq_self_iff.mpr
  intro item member
  simpa using ne_of_mem_of_not_mem member free

theorem exists_last_cut {α : Type} {separator : α} {text : List α} (member : separator ∈ text) :
    ∃ front back, text = front ++ separator :: back ∧ separator ∉ back := by
  obtain ⟨front, back, split, free⟩ :=
    List.eq_append_cons_of_mem (List.mem_reverse.mpr member)
  exact ⟨back.reverse, front.reverse, by simpa using congrArg List.reverse split, by simpa using free⟩

def rfind {α : Type} [DecidableEq α] (separator : α) (text : List α) : Option Nat :=
  (text.reverse.findIdx? (· = separator)).map fun place => text.length - 1 - place

theorem rfind_cut {α : Type} [DecidableEq α] {separator : α} {back : List α}
    (free : separator ∉ back) (front : List α) :
    rfind separator (front ++ separator :: back) = some front.length := by
  have found : (front ++ separator :: back).reverse.findIdx? (· = separator) =
      some back.length := by
    rw [List.reverse_append, List.reverse_cons, List.append_assoc, List.findIdx?_append,
      List.findIdx?_eq_none_iff.mpr]
    · simp [List.findIdx?_cons]
    · intro item member
      simpa using ne_of_mem_of_not_mem (List.mem_reverse.mp member) free
  rw [rfind, found, Option.map_some, List.length_append, List.length_cons]
  congr 1
  omega

theorem cut_injective {separator : Char} {text front back front' back' : String}
    (isText : text.toList = [separator]) (free : separator ∉ back.toList)
    (free' : separator ∉ back'.toList)
    (same : front ++ text ++ back = front' ++ text ++ back') : front = front' ∧ back = back' := by
  have lists : back.toList.reverse ++ separator :: front.toList.reverse =
      back'.toList.reverse ++ separator :: front'.toList.reverse := by
    simpa [String.toList_append, isText] using congrArg (fun text => text.toList.reverse) same
  obtain ⟨backs, fronts⟩ := first_cut_injective (by simpa using free) (by simpa using free') lists
  exact ⟨String.toList_injective (List.reverse_injective fronts),
    String.toList_injective (List.reverse_injective backs)⟩

end FairMQ.Data
