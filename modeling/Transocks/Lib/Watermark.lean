import Mathlib.Tactic

/-!
# Reads that collect in a buffer up to a low watermark

A stream arrives in reads of any size. The reader is called when the buffer has reached a low
watermark, and then finds everything that was read so far. `collect n buf reads` is what it finds.
-/

namespace Watermark

variable {α : Type*} {n : ℕ} {buf r xs : List α} {reads rest : List (List α)}

/-- The buffer at the first read that brings it to `n` elements, and the reads after that one. -/
def collect (n : ℕ) : List α → List (List α) → Option (List α × List (List α))
  | _, [] => none
  | buf, r :: reads =>
    if n ≤ (buf ++ r).length then some (buf ++ r, reads) else collect n (buf ++ r) reads

/-- One more read after the watermark was reached. -/
theorem collect_concat_some (h : collect n buf reads = some (xs, rest)) :
    collect n buf (reads ++ [r]) = some (xs, rest ++ [r]) := by
  induction reads generalizing buf with
  | nil => cases h
  | cons r' reads ih =>
    unfold collect at h
    rw [List.cons_append]
    unfold collect
    split_ifs at h ⊢ with hn
    · obtain ⟨rfl, rfl⟩ := Prod.mk.inj (Option.some.inj h)
      rfl
    · exact ih h

theorem collect_concat_none (h : collect n buf reads = none) :
    collect n buf (reads ++ [r]) =
      if n ≤ (buf ++ reads.flatten ++ r).length then some (buf ++ reads.flatten ++ r, [])
      else none := by
  induction reads generalizing buf with
  | nil => simp [collect]
  | cons r' reads ih =>
    unfold collect at h
    rw [List.cons_append]
    unfold collect
    split_ifs at h with hn
    rw [if_neg hn, ih h, List.flatten_cons, List.append_assoc buf]

theorem le_length_of_collect (h : collect n buf reads = some (xs, rest)) : n ≤ xs.length := by
  induction reads generalizing buf with
  | nil => cases h
  | cons r reads ih =>
    unfold collect at h
    split_ifs at h with hn
    · obtain ⟨rfl, rfl⟩ := Prod.mk.inj (Option.some.inj h)
      exact hn
    · exact ih h

theorem length_lt_of_collect (h : collect n buf reads = none) (hbuf : buf.length < n) :
    (buf ++ reads.flatten).length < n := by
  induction reads generalizing buf with
  | nil => simpa using hbuf
  | cons r reads ih =>
    unfold collect at h
    split_ifs at h with hn
    rw [List.flatten_cons, ← List.append_assoc]
    exact ih h (Nat.not_le.mp hn)

end Watermark
