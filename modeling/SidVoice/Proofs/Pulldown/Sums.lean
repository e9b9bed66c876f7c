import SidVoice.Proofs.Number.Exceptional
import SidVoice.Proofs.Pulldown.Monotone

/-!
# Bounds on the sums over the other lines

A sum of terms of one sign has that sign, however it is rounded, and a sum of terms that are not
negative is no smaller than any of them. So the pull on a line is not negative if no level is above
one, and not positive if none is below; and the influence on a line is positive if its neighbour's
is. Weights that are at most one add up to eleven at most.

Infinities are covered: what is far below a full level may lack so much that its term is infinite.
Two signs never meet here, and so no sum fails to be a number.
-/

namespace SidVoice.Pulldown

open Number

section Sums

variable {term : Line → Float32} {lines : List Line} {sum : Float32}

/-- What a sum of two has only if both have it, a sum has only if its start and all its terms do. -/
theorem forall_of_foldl (P : Float32 → Prop) (hadd : ∀ x y, P (x + y) → P x ∧ P y)
    (h : P (lines.foldl (fun sum line => sum + term line) sum)) :
    P sum ∧ ∀ line ∈ lines, P (term line) := by
  induction lines generalizing sum with
  | nil => exact ⟨h, fun line hline => absurd hline List.not_mem_nil⟩
  | cons first rest ih =>
    obtain ⟨hsum, hrest⟩ := ih h
    obtain ⟨hsum, hfirst⟩ := hadd sum (term first) hsum
    exact ⟨hsum, List.forall_mem_cons.mpr ⟨hfirst, hrest⟩⟩

/-- A sum is finite only if its start and all its terms are. -/
theorem isFinite_of_foldl
    (h : (lines.foldl (fun sum line => sum + term line) sum).isFinite = true) :
    sum.isFinite = true ∧ ∀ line ∈ lines, (term line).isFinite = true :=
  forall_of_foldl (fun x => x.isFinite = true) (fun _ _ => isFinite_of_add) h

/-- A sum is a number only if its start and all its terms are. -/
theorem isNumber_of_foldl (h : IsNumber (lines.foldl (fun sum line => sum + term line) sum)) :
    IsNumber sum ∧ ∀ line ∈ lines, IsNumber (term line) :=
  forall_of_foldl IsNumber (fun _ _ => isNumber_of_add) h

/-- A sum of terms that are not negative is no smaller than its start. -/
theorem start_le_foldl (hterms : ∀ line ∈ lines, 0 ≤ term line) (hsum : 0 ≤ sum) :
    sum ≤ lines.foldl (fun sum line => sum + term line) sum := by
  induction lines generalizing sum with
  | nil => exact le_refl_single (nonneg_iff_value.mp hsum).1
  | cons first rest ih =>
    have hfirst := le_add_right_single hsum (hterms first List.mem_cons_self)
    exact le_trans_single hfirst
      (ih (fun line hline => hterms line (List.mem_cons_of_mem first hline))
        (le_trans_single hsum hfirst))

/-- A sum of terms that are not negative is no smaller than any of them. -/
theorem term_le_foldl (hterms : ∀ line ∈ lines, 0 ≤ term line) (hsum : 0 ≤ sum) {line : Line}
    (hline : line ∈ lines) :
    term line ≤ lines.foldl (fun sum line => sum + term line) sum := by
  induction lines generalizing sum with
  | nil => exact absurd hline List.not_mem_nil
  | cons first rest ih =>
    have hfirst := hterms first List.mem_cons_self
    have hrest : ∀ line ∈ rest, 0 ≤ term line := fun line hline =>
      hterms line (List.mem_cons_of_mem first hline)
    have hnext := le_trans_single hsum (le_add_right_single hsum hfirst)
    obtain rfl | hline := List.mem_cons.mp hline
    · exact le_trans_single (le_add_left_single hsum hfirst) (start_le_foldl hrest hnext)
    · exact ih hrest hnext hline

/-- A sum of terms that are not positive is not positive. -/
theorem foldl_nonpos (hterms : ∀ line ∈ lines, term line ≤ 0) (hsum : sum ≤ 0) :
    lines.foldl (fun sum line => sum + term line) sum ≤ 0 := by
  induction lines generalizing sum with
  | nil => exact hsum
  | cons first rest ih =>
    exact ih (fun line hline => hterms line (List.mem_cons_of_mem first hline))
      (add_nonpos_single hsum (hterms first List.mem_cons_self))

end Sums

section Pulls

variable {weights : WeightTable} {levels : Line → Float32}

/-- The pull on a line is not negative if no level is above one. -/
theorem Regular.pull_nonneg (h : Regular weights)
    (hfinite : ∀ other, (levels other).isFinite = true) (hlevels : ∀ other, levels other ≤ 1)
    (line : Line) : 0 ≤ pull weights levels line := by
  apply start_le_foldl _ (by decide)
  intro other hother
  have hne := mem_others.mp hother
  exact mul_nonneg_single (isFinite_one_sub (hfinite other)) (h.isFinite_between hne)
    (one_sub_nonneg (hlevels other)) (h.between_nonneg hne)

/-- The pull on a line is not positive if no level is below one. -/
theorem Regular.pull_nonpos (h : Regular weights)
    (hfinite : ∀ other, (levels other).isFinite = true) (hlevels : ∀ other, 1 ≤ levels other)
    (line : Line) : pull weights levels line ≤ 0 := by
  apply foldl_nonpos _ (by decide)
  intro other hother
  have hne := mem_others.mp hother
  exact mul_nonpos_single (isFinite_one_sub (hfinite other)) (h.isFinite_between hne)
    (one_sub_nonpos (hlevels other)) (h.between_nonneg hne)

end Pulls

section Influences

variable {weights : WeightTable}

/-- Every line has a neighbour, whose weight stands next to the middle of the table. -/
theorem exists_neighbour (weights : WeightTable) (line : Line) :
    ∃ other, other ≠ line ∧
      (weights.between line other = weights.get 11 ∨
        weights.between line other = weights.get 13) := by
  by_cases hline : line = 0
  · subst hline
    exact ⟨1, by decide, Or.inl rfl⟩
  · have hpos : line.val ≠ 0 := fun heq => hline (Fin.ext heq)
    have hentry : line.val + 12 - (line.val - 1) = 13 := by omega
    refine ⟨⟨line.val - 1, by omega⟩, ?_, Or.inr ?_⟩
    · intro heq
      have hval := congrArg Fin.val heq
      simp only at hval
      omega
    · simp only [WeightTable.between, hentry]
      rfl

/-- If the weights of different lines on each other are at most one and not negative, and those of
neighbours are positive, then the influences are positive and at most eleven. -/
theorem influence_bounds
    (hentries : ∀ entry : Fin 25, 0 < entry.val → entry.val < 24 → entry.val ≠ 12 →
      0 ≤ weights.get entry ∧ weights.get entry ≤ 1)
    (hhigher : 0 < weights.get 11) (hlower : 0 < weights.get 13) (line : Line) :
    0 < influence weights line ∧ influence weights line ≤ 11 := by
  have hterms : ∀ other ∈ others line,
      0 ≤ weights.between line other ∧ weights.between line other ≤ 1 := by
    intro other hother
    obtain ⟨entry, ⟨hlt, hle, hmiddle⟩, hget⟩ := exists_reaches (mem_others.mp hother)
    rw [hget]
    exact hentries entry (by omega) (by omega) hmiddle
  constructor
  · obtain ⟨other, hne, hneighbour⟩ := exists_neighbour weights line
    have hpos : 0 < weights.between line other := by
      obtain heq | heq := hneighbour
      · rwa [heq]
      · rwa [heq]
    exact lt_of_lt_of_le_single hpos
      (term_le_foldl (fun other hother => (hterms other hother).1) (by decide)
        (mem_others.mpr hne))
  · have hstart : InOrder 0 0 0 := ⟨by decide, fun _ => ⟨by decide, by decide⟩⟩
    have hsums : InOrder ((others line).foldl (fun sum _ => sum + 0) 0)
        ((others line).foldl (fun sum other => sum + weights.between line other) 0)
        ((others line).foldl (fun sum _ => sum + 1) 0) :=
      hstart.foldl fun other hother =>
        ⟨(hterms other hother).1, (hterms other hother).2, by decide, by decide⟩
    have heleven : (others line).foldl (fun sum _ => sum + 1) (0 : Float32) = 11 := by
      rw [List.foldl_const (· + 1), length_others]
      decide +kernel
    rw [heleven] at hsums
    have htop : value 11 ≠ ⊤ := (isFinite_iff_value.mp (by decide)).2.2
    exact (hsums.le htop).2

/-- Such a weight table is regular. -/
theorem regular_of_le_one
    (hentries : ∀ entry : Fin 25, 0 < entry.val → entry.val < 24 → entry.val ≠ 12 →
      0 ≤ weights.get entry ∧ weights.get entry ≤ 1)
    (hhigher : 0 < weights.get 11) (hlower : 0 < weights.get 13) : Regular weights := by
  have hbounds := influence_bounds hentries hhigher hlower
  refine ⟨?_, ?_, ?_, ?_⟩
  · intro entry hfirst hlast hmiddle
    obtain ⟨hnonneg, hle⟩ := hentries entry hfirst hlast hmiddle
    exact isFinite_of_le_of_le (by decide) (by decide) hnonneg hle
  · intro entry hfirst hlast hmiddle
    exact (hentries entry hfirst hlast hmiddle).1
  · intro line
    obtain ⟨hpos, hle⟩ := hbounds line
    exact isFinite_of_le_of_le (by decide) (by decide) (le_of_lt_single hpos) hle
  · intro line
    exact (hbounds line).1

end Influences

end SidVoice.Pulldown
