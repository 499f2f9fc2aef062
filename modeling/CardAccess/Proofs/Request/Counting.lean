import CardAccess.Request.Reference
import Mathlib.Algebra.Ring.Nat

/-!
# Counting references

The counter of a reference is written in five decimal digits, and increasing it is adding one to
the number that they stand for, where one follows on 99999 (`nextCounter_digits`).  So a run of
increases goes round with the period 99999 and never comes to zero.

What is increased keeps its length and everything before the counter, whichever characters are in
the counter.  A number that is put in the place of the counter does so exactly if it has five
digits or fewer: it is filled up with zeros but not cut.
-/

namespace CardAccess
namespace HolderReference

/-! ## The counter as a list of characters -/

theorem length_increaseReversed (cs : List Char) : (increaseReversed cs).length = cs.length := by
  induction cs with
  | nil => rfl
  | cons last front ih =>
    rw [increaseReversed]
    cases successor? last with
    | some next => rfl
    | none => rw [List.length_cons, List.length_cons, ih]

theorem length_nextCounter {counter : List Char} (h : counter.length = counterLength) :
    (nextCounter counter).length = counterLength := by
  rw [nextCounter]
  split
  · rfl
  · rw [increaseCounter, List.length_reverse, length_increaseReversed, List.length_reverse, h]

theorem length_numberCounter (number : Nat) :
    (numberCounter number).length = counterLength ↔ number < 10 ^ counterLength := by
  have hdigits : (Nat.toDigits 10 number).length ≤ counterLength ↔ number < 10 ^ counterLength :=
    Nat.length_toDigits_le_iff (by decide) (by decide)
  rw [← hdigits]
  simp only [numberCounter, List.length_append, List.length_replicate]
  omega

/-! ## The number that the counter stands for -/

/-- The lowest decimal digits of a number, the last one first. -/
def lowDigits : (width n : Nat) → List Char
  | 0, _ => []
  | width + 1, n => Nat.digitChar (n % 10) :: lowDigits width (n / 10)

/-- The five lowest decimal digits of a number. -/
def digits (n : Nat) : List Char := (lowDigits counterLength n).reverse

theorem length_lowDigits (width n : Nat) : (lowDigits width n).length = width := by
  induction width generalizing n with
  | zero => rfl
  | succ width ih => rw [lowDigits, List.length_cons, ih]

@[simp] theorem length_digits (n : Nat) : (digits n).length = counterLength := by
  rw [digits, List.length_reverse, length_lowDigits]

theorem digitChar_inj : ∀ d < 10, ∀ e < 10, Nat.digitChar d = Nat.digitChar e → d = e := by
  decide

theorem lowDigits_inj {width m n : Nat} :
    lowDigits width m = lowDigits width n ↔ m % 10 ^ width = n % 10 ^ width := by
  induction width generalizing m n with
  | zero => simp [lowDigits, Nat.mod_one]
  | succ width ih =>
    have hm := Nat.mod_lt m (show 0 < 10 by decide)
    have hn := Nat.mod_lt n (show 0 < 10 by decide)
    have hpow : 10 ^ (width + 1) = 10 * 10 ^ width := Nat.pow_succ'
    rw [lowDigits, lowDigits, List.cons.injEq, ih, hpow, Nat.mod_mul, Nat.mod_mul]
    constructor
    · rintro ⟨hlow, hrest⟩
      rw [digitChar_inj _ hm _ hn hlow, hrest]
    · intro h
      have hlow : m % 10 = n % 10 := by omega
      exact ⟨congrArg Nat.digitChar hlow, by omega⟩

theorem digits_inj {m n : Nat} : digits m = digits n ↔ m % 100000 = n % 100000 :=
  List.reverse_inj.trans lowDigits_inj

theorem lowDigits_zero (width : Nat) : lowDigits width 0 = List.replicate width '0' := by
  induction width with
  | zero => rfl
  | succ width ih =>
    rw [lowDigits, Nat.zero_div, ih]
    rfl

theorem reverse_lowDigits {width n : Nat} (hwidth : 0 < width) (h : n < 10 ^ width) :
    (lowDigits width n).reverse
      = List.replicate (width - (Nat.toDigits 10 n).length) '0' ++ Nat.toDigits 10 n := by
  induction width generalizing n with
  | zero => cases hwidth
  | succ width ih =>
    by_cases hsmall : n < 10
    · have hlow : n % 10 = n := by omega
      have hrest : n / 10 = 0 := by omega
      simp [lowDigits, hlow, hrest, lowDigits_zero, Nat.toDigits_of_lt_base hsmall]
    · have hrest : n / 10 < 10 ^ width := by
        rw [Nat.pow_succ'] at h
        omega
      have hmore : 0 < width := by
        by_contra hzero
        rw [Nat.le_zero.mp (Nat.not_lt.mp hzero), Nat.pow_zero] at hrest
        omega
      rw [Nat.toDigits_of_base_le (by decide) (by omega), lowDigits, List.reverse_cons,
        ih hmore hrest, List.append_assoc, List.length_append, List.length_singleton,
        Nat.add_sub_add_right]

/-- A number that fits is put in as its five digits. -/
theorem numberCounter_eq_digits {n : Nat} (h : n < 100000) : numberCounter n = digits n :=
  (reverse_lowDigits (by decide) h).symm

theorem successor?_digitChar :
    ∀ d < 10, successor? d.digitChar = if d < 9 then some (d + 1).digitChar else none := by
  decide

/-- A carry goes from digit to digit as it does in the number. -/
theorem increaseReversed_lowDigits (width n : Nat) :
    increaseReversed (lowDigits width n) = lowDigits width (n + 1) := by
  induction width generalizing n with
  | zero => rfl
  | succ width ih =>
    rw [lowDigits, increaseReversed, successor?_digitChar _ (Nat.mod_lt n (by decide)), lowDigits]
    by_cases hlast : n % 10 < 9
    · have hdigit : (n + 1) % 10 = n % 10 + 1 := by omega
      have hrest : (n + 1) / 10 = n / 10 := by omega
      rw [if_pos hlast, hdigit, hrest]
    · have hdigit : (n + 1) % 10 = 0 := by omega
      have hrest : (n + 1) / 10 = n / 10 + 1 := by omega
      rw [if_neg hlast, hdigit, hrest]
      show '0' :: increaseReversed _ = _
      rw [ih]
      rfl

theorem increaseCounter_digits (n : Nat) : increaseCounter (digits n) = digits (n + 1) := by
  rw [increaseCounter, digits, List.reverse_reverse, increaseReversed_lowDigits, digits]

theorem all_nines_digits (n : Nat) : (digits n).all (· == '9') = true ↔ n % 100000 = 99999 := by
  have hnines : digits 99999 = List.replicate counterLength '9' := by decide
  rw [show 99999 = 99999 % 100000 by decide, ← digits_inj, hnines, List.eq_replicate_iff]
  simp

/-- The counter stands for the next number, or for one after the last. -/
theorem nextCounter_digits {n : Nat} (h : n ≤ 99999) :
    nextCounter (digits n) = digits (1 + n % 99999) := by
  rw [nextCounter]
  by_cases hlast : n = 99999
  · rw [if_pos ((all_nines_digits n).mpr (by omega)), hlast]
    rfl
  · have hmod : 1 + n % 99999 = n + 1 := by omega
    rw [if_neg (fun hnines => hlast (by have := (all_nines_digits n).mp hnines; omega)), hmod,
      increaseCounter_digits]

/-! ## One reference after another -/

/-- The references are the same but for the five characters of the counter, and stay apart from it
when they are split again. -/
structure Recounted (before after : String) : Prop where
  length : after.length = before.length
  front : after.toList.take (before.length - counterLength)
    = before.toList.take (before.length - counterLength)
  split : ∃ front counter counter', HolderReference.split before = .ok (front, counter) ∧
    HolderReference.split after = .ok (front, counter')

section split

variable {front counter counter' : List Char}

theorem split_append (h : counter.length = counterLength) :
    split (String.ofList (front ++ counter)) = .ok (front, counter) := by
  have hlong : ¬ (front ++ counter).length < counterLength := by
    rw [List.length_append]
    omega
  have hcut : (front ++ counter).length - counterLength = front.length := by
    rw [List.length_append]
    omega
  rw [split, String.toList_ofList, if_neg hlong, hcut, List.splitAt_eq, List.take_left,
    List.drop_left]

theorem exists_split {reference : String} (h : counterLength ≤ reference.length) :
    ∃ front counter, counter.length = counterLength ∧
      reference = String.ofList (front ++ counter) := by
  refine ⟨reference.toList.take (reference.length - counterLength),
    reference.toList.drop (reference.length - counterLength), ?_, ?_⟩
  · rw [List.length_drop, String.length_toList]
    omega
  · rw [List.take_append_drop, String.ofList_toList]

theorem split_error {reference : String} (h : reference.length < counterLength) :
    split reference = .error (.invalidHolderReference reference) := by
  rw [← String.length_toList] at h
  exact if_pos h

theorem increase_append (h : counter.length = counterLength) :
    increase (String.ofList (front ++ counter))
      = .ok (String.ofList (front ++ nextCounter counter)) := by
  rw [increase, split_append h]
  rfl

theorem withNumber_append (h : counter.length = counterLength) (number : Nat) :
    withNumber (String.ofList (front ++ counter)) number
      = .ok (String.ofList (front ++ numberCounter number)) := by
  rw [withNumber, split_append h]
  rfl

/-- Whatever stands for the counter, it is enough that it has five characters. -/
theorem recounted_append_iff (h : counter.length = counterLength) :
    Recounted (String.ofList (front ++ counter)) (String.ofList (front ++ counter')) ↔
      counter'.length = counterLength := by
  constructor
  · intro hrecounted
    have hlength := hrecounted.length
    rw [String.length_ofList, String.length_ofList, List.length_append, List.length_append,
      h] at hlength
    omega
  · intro h'
    refine ⟨?_, ?_, front, counter, counter', split_append h, split_append h'⟩
    · rw [String.length_ofList, String.length_ofList, List.length_append, List.length_append, h, h']
    · rw [String.length_ofList, List.length_append, h, Nat.add_sub_cancel, String.toList_ofList,
        String.toList_ofList, List.take_left, List.take_left]

end split

/-- Every reference with room for a counter is followed by one that differs in the counter. -/
theorem exists_recounted_increase {reference : String} (h : counterLength ≤ reference.length) :
    ∃ next, increase reference = .ok next ∧ Recounted reference next := by
  obtain ⟨front, counter, hcounter, rfl⟩ := exists_split h
  exact ⟨_, increase_append hcounter,
    (recounted_append_iff hcounter).mpr (length_nextCounter hcounter)⟩

theorem increase_error {reference : String} (h : reference.length < counterLength) :
    increase reference = .error (.invalidHolderReference reference) := by
  rw [increase, split_error h]
  rfl

/-! ## A run of references -/

/-- The reference with a number for its counter. -/
def numbered (front : String) (n : Nat) : String := front ++ String.ofList (digits n)

/-- The reference after a number of increases. -/
def increases : (count : Nat) → String → Except Error String
  | 0, reference => .ok reference
  | count + 1, reference => do increases count (← increase reference)

theorem numbered_eq (front : String) (n : Nat) :
    numbered front n = String.ofList (front.toList ++ digits n) := by
  rw [numbered, String.ofList_append, String.ofList_toList]

theorem numbered_inj {front : String} {m n : Nat} :
    numbered front m = numbered front n ↔ m % 100000 = n % 100000 := by
  rw [numbered_eq, numbered_eq, ← digits_inj, ← String.toList_inj, String.toList_ofList,
    String.toList_ofList, List.append_right_inj]

theorem increase_numbered (front : String) {n : Nat} (h : n ≤ 99999) :
    increase (numbered front n) = .ok (numbered front (1 + n % 99999)) := by
  rw [numbered_eq, increase_append (length_digits n), nextCounter_digits h, numbered_eq]

theorem increases_numbered (front : String) {count n : Nat} (h : n ≤ 99999) (hcount : 1 ≤ count) :
    increases count (numbered front n)
      = .ok (numbered front (1 + (n + count - 1) % 99999)) := by
  induction count generalizing n with
  | zero => cases hcount
  | succ count ih =>
    have hnext : 1 + n % 99999 ≤ 99999 := by omega
    rw [increases, increase_numbered front h]
    show increases count _ = _
    by_cases hlast : count = 0
    · rw [hlast]
      rfl
    · have hmod : (1 + n % 99999 + count - 1) % 99999 = (n + (count + 1) - 1) % 99999 := by omega
      rw [ih hnext (by omega), hmod]

/-- What comes after a reference that is numbered `n`. -/
structure Counts (front : String) (n : Nat) : Prop where
  increases_eq : ∀ count, 1 ≤ count → increases count (numbered front n)
    = .ok (numbered front (1 + (n + count - 1) % 99999))
  again_iff : ∀ i j, 1 ≤ i → 1 ≤ j →
    (increases i (numbered front n) = increases j (numbered front n) ↔ i % 99999 = j % 99999)
  ne_zero : ∀ count, 1 ≤ count → increases count (numbered front n) ≠ .ok (numbered front 0)

theorem counts_numbered (front : String) {n : Nat} (h : n ≤ 99999) : Counts front n := by
  refine ⟨fun count hcount => increases_numbered front h hcount, fun i j hi hj => ?_,
    fun count hcount heq => ?_⟩
  · rw [increases_numbered front h hi, increases_numbered front h hj, Except.ok.injEq,
      numbered_inj]
    omega
  · rw [increases_numbered front h hcount, Except.ok.injEq, numbered_inj] at heq
    omega

/-- A numbered reference counts on from its number, and any reference with room for a counter is
followed by one that differs in the counter only; a shorter one is refused. -/
theorem counts_and_recounts (front : String) {n : Nat} (h : n ≤ 99999) :
    Counts front n ∧ ∀ reference : String,
      (counterLength ≤ reference.length →
        ∃ next, increase reference = .ok next ∧ Recounted reference next) ∧
      (reference.length < counterLength →
        increase reference = .error (.invalidHolderReference reference)) :=
  ⟨counts_numbered front h, fun _ => ⟨exists_recounted_increase, increase_error⟩⟩

/-- From the last but one number over the end and back to it. -/
theorem counts_and_recounts_wrap :
    increases 1 "DETESTeID99998" = .ok "DETESTeID99999" ∧
      increases 2 "DETESTeID99998" = .ok "DETESTeID00001" ∧
      increases 99999 "DETESTeID99998" = .ok "DETESTeID99998" := by
  have hcounts := (counts_and_recounts "DETESTeID" (show 99998 ≤ 99999 by decide)).1
  exact ⟨hcounts.increases_eq 1 (by decide), hcounts.increases_eq 2 (by decide),
    hcounts.increases_eq 99999 (by decide)⟩

/-! ## A number in the place of the counter -/

/-- A run of references can be taken up at any number. -/
theorem withNumber_numbered (front : String) (m : Nat) {n : Nat} (h : n < 100000) :
    withNumber (numbered front m) n = .ok (numbered front n) := by
  rw [numbered_eq, withNumber_append (length_digits m), numberCounter_eq_digits h, numbered_eq]

/-- The next reference differs in the counter only exactly if the number for it, where one is
given, has no more digits than the counter has characters. -/
theorem recounted_next_iff {reference : String} (h : counterLength ≤ reference.length)
    (number : Option Nat) :
    ∃ after, next reference number = .ok after ∧
      (Recounted reference after ↔ ∀ n, number = some n → n < 100000) := by
  cases number with
  | none =>
    obtain ⟨after, hafter, hrecounted⟩ := exists_recounted_increase h
    exact ⟨after, hafter, fun _ _ hn => (nomatch hn), fun _ => hrecounted⟩
  | some number =>
    obtain ⟨front, counter, hcounter, rfl⟩ := exists_split h
    refine ⟨_, withNumber_append hcounter number, ?_⟩
    rw [recounted_append_iff hcounter, length_numberCounter]
    constructor
    · intro hfew n hn
      cases hn
      exact hfew
    · exact fun hfew => hfew number rfl

/-- The greatest number that fits is put in. -/
theorem recounted_next_iff_greatest :
    next "ABCDE12345" (some 99999) = .ok "ABCDE99999" ∧ Recounted "ABCDE12345" "ABCDE99999" := by
  have hlong : counterLength ≤ "ABCDE12345".length := by decide
  obtain ⟨after, hafter, hiff⟩ := recounted_next_iff hlong (some 99999)
  have hnext : next "ABCDE12345" (some 99999) = .ok "ABCDE99999" := by decide
  cases hnext.symm.trans hafter
  refine ⟨hnext, hiff.mpr fun n hn => ?_⟩
  cases hn
  decide

/-- One more makes the reference longer. -/
theorem sixth_digit_kept :
    next "ABCDE12345" (some 100000) = .ok "ABCDE100000" ∧ ¬ Recounted "ABCDE12345" "ABCDE100000" :=
  ⟨by decide, fun hrecounted => absurd hrecounted.length (by decide)⟩

end HolderReference
end CardAccess
