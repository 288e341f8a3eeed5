/-!
  SearchBox.Text.Ranges — a class of characters as a list of closed ranges of code points in
  increasing order. The search stops at the first range that starts above the code point.
-/

namespace SearchBox.Text

/-- Whether a code point lies in one of the ranges, which are in increasing order. -/
def covers : List (Nat × Nat) → Nat → Bool
  | [], _ => false
  | (first, last) :: later, n => if n < first then false else n ≤ last || covers later n

theorem exists_mem_of_covers {ranges : List (Nat × Nat)} {n : Nat} (h : covers ranges n = true) :
    ∃ r ∈ ranges, r.1 ≤ n ∧ n ≤ r.2 := by
  induction ranges with
  | nil => simp [covers] at h
  | cons r later ih =>
    obtain ⟨first, last⟩ := r
    simp only [covers] at h
    split at h
    · cases h
    · rename_i hlow
      by_cases hlast : n ≤ last
      · exact ⟨_, List.mem_cons_self, by simpa using hlow, hlast⟩
      · simp only [hlast, decide_false, Bool.false_or] at h
        obtain ⟨q, hq, hn⟩ := ih h
        exact ⟨q, List.mem_cons_of_mem _ hq, hn⟩

end SearchBox.Text
