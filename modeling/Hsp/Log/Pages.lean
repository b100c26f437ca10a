import Mathlib.Data.List.Nodup

/-!
# Reading a list page by page

A client reads a list in pages of at most `limit` items.  After a page that is not the last one it
asks for the items after the last item it was given, which it names by its key.

* `startAfter_getElem` : if keys are not repeated, the items after a key start right behind the item
  with that key;
* `flatten_pagesFrom` : the pages read one after the other make up the list;
* `ended_pagesFrom` : after enough pages the last one is marked as the last;
* `together` : both, for pages that have been read.
-/

namespace Hsp

open List

namespace Pages

variable {α κ : Type}

section Key

variable [DecidableEq κ] (key : α → κ)

/-- Where the items after a key start.  A key that is not found starts the list over. -/
def startAfter (l : List α) : Option κ → ℕ
  | none => 0
  | some k => (l.findIdx? (key · == k)).elim 0 (· + 1)

variable {key}

theorem startAfter_getElem {l : List α} (h : (l.map key).Nodup) {i : ℕ} (hi : i < l.length) :
    startAfter key l (some (key l[i])) = i + 1 := by
  have hfound : l.findIdx? (key · == key l[i]) = some i := by
    refine findIdx?_eq_some_iff_getElem.2 ⟨hi, by simp, fun j hj => ?_⟩
    have hi' : i < (l.map key).length := by rwa [length_map]
    have hj' : j < (l.map key).length := Nat.lt_trans hj hi'
    have hne : (l.map key)[j] ≠ (l.map key)[i] :=
      fun heq => Nat.ne_of_lt hj (h.getElem_inj_iff.1 heq)
    simpa using hne
  rw [startAfter, hfound]
  rfl

end Key

/-! ### The pages of a list -/

section Pages

variable (limit : ℕ) (l : List α)

/-- The first `n` pages from a position on, each with a mark that tells whether more follow. -/
def pagesFrom : ℕ → ℕ → List (List α × Bool)
  | 0, _ => []
  | n + 1, i =>
    if i + limit < l.length then ((l.drop i).take limit, true) :: pagesFrom n (i + limit)
    else [((l.drop i).take limit, false)]

/-- **The pages make up the list.** -/
theorem flatten_pagesFrom (n i : ℕ) :
    (pagesFrom limit l n i).flatMap Prod.fst = (l.drop i).take (n * limit) := by
  induction n generalizing i with
  | zero => simp [pagesFrom]
  | succ n ih =>
    rw [pagesFrom]
    split
    · rw [flatMap_cons, ih, Nat.succ_mul, Nat.add_comm (n * limit), take_add,
        drop_drop]
    · rename_i hlast
      have hshort : (l.drop i).length ≤ limit := by
        rw [length_drop]
        omega
      have hshort' : (l.drop i).length ≤ (n + 1) * limit :=
        Nat.le_trans hshort (Nat.le_mul_of_pos_left _ n.succ_pos)
      simp [take_of_length_le hshort, take_of_length_le hshort']

/-- **The last page is marked as the last exactly if the list has been read.** -/
theorem ended_pagesFrom {n : ℕ} (hn : 0 < n) (i : ℕ) :
    (pagesFrom limit l n i).getLast?.map Prod.snd = some false ↔ l.length ≤ i + n * limit := by
  induction n generalizing i with
  | zero => cases hn
  | succ n ih =>
    rw [pagesFrom, Nat.succ_mul]
    split
    · rename_i hmore
      cases n with
      | zero =>
        simp [pagesFrom, hmore]
      | succ n =>
        have hne : pagesFrom limit l (n + 1) (i + limit) ≠ [] := by
          rw [pagesFrom]
          split <;> simp
        obtain ⟨last, hlast⟩ : ∃ last,
            (pagesFrom limit l (n + 1) (i + limit)).getLast? = some last :=
          ⟨_, getLast?_eq_some_getLast hne⟩
        have hrec := ih n.succ_pos (i + limit)
        rw [hlast] at hrec
        rw [getLast?_cons, hlast, Option.getD_some, hrec]
        omega
    · rename_i hlast
      have hread : l.length ≤ i + (n * limit + limit) := by omega
      simp [hread]

/-- Pages with the items and the marks of the pages of a list: what they make up, and when the last
of them tells of no more. -/
theorem together {π τ : Type} {items : π → List α} {next : π → Option τ} {pages : List π} {n i : ℕ}
    (h : pages.map (fun p => (items p, (next p).isSome)) = pagesFrom limit l n i) :
    pages.flatMap items = (l.drop i).take (n * limit) ∧
      (0 < n → (pages.getLast?.map next = some none ↔ l.length ≤ i + n * limit)) := by
  constructor
  · have hall := flatten_pagesFrom limit l n i
    rwa [← h, flatMap_map] at hall
  · intro hn
    rw [← ended_pagesFrom limit l hn i, ← h, getLast?_map]
    cases pages.getLast? with
    | none => simp
    | some last => simp

end Pages

end Pages

end Hsp
