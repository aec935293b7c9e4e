/-!
# Tallies

A tally counts events under labels. A label that was never counted counts zero.
-/
namespace EbmsMessaging

/-- Counts by label, in the order in which the labels were first counted. -/
structure Tally where
  counts : List (String × Nat)
deriving DecidableEq, Repr

namespace Tally

def empty : Tally := ⟨[]⟩

/-- Adds to the count of a label. -/
def addTo (label : String) (n : Nat) : List (String × Nat) → List (String × Nat)
  | [] => [(label, n)]
  | (l, m) :: rest => if l = label then (l, m + n) :: rest else (l, m) :: addTo label n rest

def add (t : Tally) (label : String) (n : Nat) : Tally := ⟨addTo label n t.counts⟩

/-- Counts one event. -/
def mark (t : Tally) (label : String) : Tally := t.add label 1

def count (t : Tally) (label : String) : Nat := (t.counts.lookup label).getD 0

/-- The sum over all labels. -/
def total (t : Tally) : Nat := t.counts.foldr (fun c n => c.2 + n) 0

theorem count_add (t : Tally) (label other : String) (n : Nat) :
    (t.add label n).count other = t.count other + if other = label then n else 0 := by
  obtain ⟨counts⟩ := t
  simp only [add, count]
  induction counts with
  | nil =>
    by_cases h : other = label
    · simp [addTo, h]
    · simp [addTo, List.lookup_cons, beq_false_of_ne h, h]
  | cons c cs ih =>
    obtain ⟨l, m⟩ := c
    by_cases hl : l = label
    · by_cases ho : other = label
      · simp [addTo, hl, ho]
      · simp [addTo, List.lookup_cons, hl, beq_false_of_ne ho, ho]
    · by_cases ho : other = l
      · simp [addTo, hl, ho]
      · simpa [addTo, List.lookup_cons, hl, beq_false_of_ne ho] using ih

theorem total_add (t : Tally) (label : String) (n : Nat) :
    (t.add label n).total = t.total + n := by
  obtain ⟨counts⟩ := t
  simp only [add, total]
  induction counts with
  | nil => simp [addTo]
  | cons c cs ih =>
    obtain ⟨l, m⟩ := c
    by_cases hl : l = label
    · simp [addTo, hl]; omega
    · simp [addTo, hl, ih]; omega

end Tally
end EbmsMessaging
