import Mathlib.Data.List.DropRight

/-!
# Reading a log by polls

A reader follows a log through polls.  A poll looks at a batch, the first `b` entries it has not
passed yet, and delivers those of them that match.  It then moves past the last entry it has
delivered, and stays where it is if it has delivered none.

* `delivered_prefix` : what polls deliver is an initial part of the matching entries, in order and
  without repetition;
* `exists_delivered_iff` : all matching entries are delivered in the end exactly if before each of
  them fewer than `b` entries in a row do not match.
-/

namespace Hsp

open List

namespace Polling

variable {α : Type} (b : ℕ) (p : α → Bool) {l : List α}

/-- The entries a poll moves past: the batch up to the last entry that matches. -/
def passed (l : List α) : List α := (l.take b).rdropWhile fun a => !p a

/-- What `n` polls deliver. -/
def delivered : ℕ → List α → List α
  | 0, _ => []
  | n + 1, l => (passed b p l).filter p ++ delivered n (l.drop (passed b p l).length)

/-- Every entry that matches comes after fewer than `b` entries in a row that do not. -/
def Reachable (l : List α) : Prop :=
  ∀ before gap x after, l = before ++ (gap ++ x :: after) → p x → (∀ y ∈ gap, ¬ p y) →
    gap.length < b

variable {b p}

theorem filter_rdropWhile (l : List α) : (l.rdropWhile fun a => !p a).filter p = l.filter p := by
  induction l using List.reverseRecOn with
  | nil => simp
  | append_singleton l x ih =>
    rw [rdropWhile_concat]
    split
    · rename_i hx
      have hx : p x = false := by simpa using hx
      simp [ih, hx]
    · rfl

theorem filter_passed (l : List α) : (passed b p l).filter p = (l.take b).filter p :=
  filter_rdropWhile _

theorem passed_prefix_take (l : List α) : passed b p l <+: l.take b :=
  rdropWhile_prefix _ _

theorem passed_append_drop (l : List α) :
    passed b p l ++ l.drop (passed b p l).length = l :=
  (prefix_iff_eq_append.1 ((passed_prefix_take l).trans ( take_prefix _ _)))

theorem length_passed_le (l : List α) : (passed b p l).length ≤ b :=
  (passed_prefix_take l).length_le.trans (length_take_le _ _)

theorem passed_eq_nil_iff (l : List α) : passed b p l = [] ↔ ∀ x ∈ l.take b, ¬ p x := by
  simp [passed, rdropWhile_eq_nil_iff]

theorem getLast_passed (h : passed b p l ≠ []) : p ((passed b p l).getLast h) := by
  have hlast := rdropWhile_last_not (fun a => !p a) (l.take b) h
  simp only [Bool.not_eq_true', Bool.not_eq_false] at hlast
  exact hlast

theorem filter_split (l : List α) :
    l.filter p = (passed b p l).filter p ++ (l.drop (passed b p l).length).filter p := by
  rw [← filter_append, passed_append_drop]

/-- **What polls deliver is an initial part of what matches.** -/
theorem delivered_prefix (n : ℕ) (l : List α) : delivered b p n l <+: l.filter p := by
  induction n generalizing l with
  | zero => exact nil_prefix
  | succ n ih =>
    rw [filter_split (b := b) l]
    exact prefix_append_right_inj _ |>.2 (ih _)

/-- Polls that start in front of a batch without a match stay there. -/
theorem delivered_eq_nil (h : ∀ x ∈ l.take b, ¬ p x) (n : ℕ) : delivered b p n l = [] := by
  have hnil := (passed_eq_nil_iff l).2 h
  induction n with
  | zero => rfl
  | succ n ih => simpa [delivered, hnil] using ih

namespace Reachable

/-- What is left after a poll is reachable. -/
theorem drop (h : Reachable b p l) (n : ℕ) : Reachable b p (l.drop n) := by
  intro before gap x after hl hx hgap
  refine h (l.take n ++ before) gap x after ?_ hx hgap
  rw [append_assoc, ← hl, take_append_drop]

theorem passed_ne_nil (h : Reachable b p l) (hl : l.filter p ≠ []) : passed b p l ≠ [] := by
  obtain ⟨x, hfirst⟩ := Option.ne_none_iff_exists'.1 (mt find?_eq_none.1 (by simpa using hl))
  -- The entries before the first match are a gap, so the first match is in the batch.
  obtain ⟨hx, gap, after, rfl, hgap⟩ := find?_eq_some_iff_append.1 hfirst
  have hlt : gap.length < b := h [] gap x after rfl hx fun y hy => by simpa using hgap y hy
  rw [Ne, passed_eq_nil_iff]
  intro hnil
  refine hnil x ?_ hx
  obtain ⟨k, rfl⟩ := Nat.exists_eq_add_of_lt hlt
  simp [take_append, Nat.add_assoc]

theorem filter_passed_ne_nil (h : Reachable b p l) (hl : l.filter p ≠ []) :
    (passed b p l).filter p ≠ [] := by
  intro hnil
  have hlast := getLast_passed (h.passed_ne_nil hl)
  exact filter_eq_nil_iff.1 hnil _ (getLast_mem _) hlast

/-- As many polls as there are matches deliver all of them. -/
theorem delivered_eq (h : Reachable b p l) {n : ℕ} (hn : (l.filter p).length ≤ n) :
    delivered b p n l = l.filter p := by
  induction n generalizing l with
  | zero => exact (length_eq_zero_iff.1 (Nat.le_zero.1 hn)).symm
  | succ n ih =>
    by_cases hl : l.filter p = []
    · have hprefix := delivered_prefix (b := b) (p := p) (n + 1) l
      rw [hl] at hprefix ⊢
      exact prefix_nil.1 hprefix
    · have hsplit := filter_split (b := b) (p := p) l
      have hpos := length_pos_iff.2 (h.filter_passed_ne_nil hl)
      have hlen := congrArg List.length hsplit
      rw [length_append] at hlen
      rw [delivered, ih (h.drop _) (by omega), ← hsplit]

/-- If the rest after a poll is reachable, so is the log. -/
theorem of_drop (h : Reachable b p (l.drop (passed b p l).length)) : Reachable b p l := by
  intro before gap x after hl hx hgap
  have hlast := fun hne => getLast_passed (b := b) (p := p) (l := l) hne
  have hle := length_passed_le (b := b) (p := p) l
  rw [← passed_append_drop (b := b) (p := p) l] at hl
  generalize passed b p l = u at h hl hlast hle
  generalize l.drop u.length = v at h hl
  rcases append_eq_append_iff.1 hl with ⟨c, -, hv⟩ | ⟨c, hu, hc⟩
  · exact h c gap x after hv hx hgap
  · rcases Nat.lt_or_ge gap.length c.length with hlt | hge
    · have hlen := congrArg List.length hu
      rw [length_append] at hlen
      omega
    · obtain ⟨d, hd⟩ := prefix_of_prefix_length_le ⟨v, hc.symm⟩ ⟨x :: after, rfl⟩ hge
      have hv : v = d ++ x :: after := by
        rw [← hd, append_assoc] at hc
        exact (append_cancel_left hc).symm
      rcases eq_nil_or_concat' c with rfl | ⟨c, y, rfl⟩
      · exact h [] gap x after (by rw [hv, ← hd]; rfl) hx hgap
      · -- The last entry that was passed matches, so it is not in the gap.
        subst hu
        refine absurd (hlast (by simp)) ?_
        simpa using hgap y (by simp [← hd])

end Reachable

/-- **When polls deliver everything that matches.** -/
theorem exists_delivered_iff (l : List α) :
    (∃ n, delivered b p n l = l.filter p) ↔ Reachable b p l := by
  constructor
  · rintro ⟨n, hn⟩
    induction n generalizing l with
    | zero =>
      intro before gap x after hl hx _
      have hmem : x ∈ l.filter p := by simp [hl, hx]
      rw [← hn] at hmem
      cases hmem
    | succ n ih =>
      rw [filter_split (b := b) l] at hn
      exact .of_drop (ih _ (append_cancel_left hn))
  · exact fun h => ⟨_, h.delivered_eq le_rfl⟩

end Polling

end Hsp
