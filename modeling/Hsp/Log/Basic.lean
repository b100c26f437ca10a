import Mathlib.Data.List.Induction
import Mathlib.Data.List.TakeWhile
import Mathlib.Logic.Function.Basic

/-!
# Revisioned logs of writes

A log is a list of entries, oldest first.  An entry writes one key, or removes it, and carries a
revision; it was admitted by what its key held before.  A log is valid when revisions ascend, every
value carries the revision of the entry that wrote it, and every entry was admitted.

`Spec` says how entries of some type are read this way.  The results are facts about every valid
log:

* `Spec.replay_split` : what a key holds was written by the last entry on that key;
* `Spec.Valid.expects_unique` : at most one entry on a key expects a given positive revision;
* `Spec.Valid.exists_removal` : between two entries on a key of which the second expects the key to
  be absent, the key was removed;
* `Spec.Valid.exists_between` : between two entries on a key of which the first establishes a
  property of the key and the second expects it to fail, some entry on the key ends it;
* `Spec.upTo_append` : the entries up to a revision are not affected by entries beyond it;
* `Spec.Valid.upTo_cases` : the entries up to a revision are those up to the last entry not beyond
  it.
-/

namespace Hsp

open List

namespace Log

variable {ε κ ν : Type}

/-- How entries `ε` write values `ν` to keys `κ`. -/
structure Spec (ε κ ν : Type) where
  rev : ε → ℕ
  key : ε → κ
  /-- The value written, or nothing if the key is removed. -/
  val : ε → Option ν
  /-- The revision a value carries. -/
  valRev : ν → ℕ
  /-- The entry may be appended when its key holds this. -/
  Admits : ε → Option ν → Prop

namespace Spec

variable {e a b : ε} {xs ys : List ε}

/-! ### Snapshots -/

section UpTo

variable (L : Spec ε κ ν) {limit : ℕ}

/-- The entries up to the first one beyond a revision. -/
def upTo (limit : ℕ) (es : List ε) : List ε := es.takeWhile fun e => L.rev e ≤ limit

variable {L}

/-- **Entries beyond a revision do not change the snapshot at it.** -/
theorem upTo_append {later : List ε} (h : ∀ e ∈ later, limit < L.rev e) (es : List ε) :
    L.upTo limit (es ++ later) = L.upTo limit es := by
  have hnil : later.takeWhile (fun e => decide (L.rev e ≤ limit)) = [] := by
    cases later with
    | nil => rfl
    | cons e later => simp [Nat.not_le.2 (h e mem_cons_self)]
  rw [upTo, takeWhile_append, hnil, append_nil]
  split
  · rename_i hlen
    exact (( takeWhile_prefix _).eq_of_length hlen).symm
  · rfl

theorem upTo_snoc (he : limit < L.rev e) (es : List ε) :
    L.upTo limit (es ++ [e]) = L.upTo limit es :=
  upTo_append (fun e' he' => by rwa [mem_singleton.1 he']) es

theorem upTo_eq_self {es : List ε} (h : ∀ e ∈ es, L.rev e ≤ limit) : L.upTo limit es = es := by
  rw [upTo, takeWhile_eq_self_iff]
  intro e he
  exact decide_eq_true (h e he)

/-- Of two entries the one with the smaller revision comes first. -/
theorem exists_split {es : List ε} (h : es.Pairwise fun a b => L.rev a < L.rev b) (ha : a ∈ es)
    (hb : b ∈ es) (hlt : L.rev a < L.rev b) : ∃ xs ys zs, es = xs ++ a :: (ys ++ b :: zs) := by
  obtain ⟨xs, ys, rfl⟩ := append_of_mem ha
  obtain ⟨-, -, hxs⟩ := pairwise_append.1 h
  rcases mem_append.1 hb with hb | hb
  · exact absurd hlt (hxs b hb a mem_cons_self).not_gt
  · rcases mem_cons.1 hb with rfl | hb
    · exact absurd hlt (lt_irrefl _)
    · obtain ⟨us, vs, rfl⟩ := append_of_mem hb
      exact ⟨xs, us, vs, rfl⟩

end UpTo

/-! ### Replaying a log -/

variable [DecidableEq κ] (L : Spec ε κ ν)

/-- One entry is written. -/
def write (f : κ → Option ν) (e : ε) : κ → Option ν := Function.update f (L.key e) (L.val e)

/-- What the keys hold after the entries of a log. -/
def replay (es : List ε) : κ → Option ν := es.foldl L.write fun _ => none

/-- The revision of what a key holds; zero if it holds nothing. -/
def revOf (o : Option ν) : ℕ := o.elim 0 L.valRev

/-- The entry is only admitted when its key is at revision `r`. -/
def Expects (e : ε) (r : ℕ) : Prop := ∀ o, L.Admits e o → L.revOf o = r

/-- Logs whose entries ascend, carry their revisions and were admitted. -/
inductive Valid : List ε → Prop
  | nil : Valid []
  | snoc {es : List ε} {e : ε} (valid : Valid es) (ascends : ∀ e' ∈ es, L.rev e' < L.rev e)
      (pos : 0 < L.rev e) (carries : ∀ v, L.val e = some v → L.valRev v = L.rev e)
      (admitted : L.Admits e (L.replay es (L.key e))) : Valid (es ++ [e])

@[simp] theorem replay_nil : L.replay [] = fun _ => none := rfl

@[simp] theorem replay_snoc (es : List ε) (e : ε) :
    L.replay (es ++ [e]) = L.write (L.replay es) e := by
  simp [replay]

@[simp] theorem write_self (f : κ → Option ν) (e : ε) : L.write f e (L.key e) = L.val e :=
  Function.update_self ..

theorem write_of_ne {f : κ → Option ν} {k : κ} (h : k ≠ L.key e) : L.write f e k = f k :=
  Function.update_of_ne h ..

variable {L}

/-- **The last entry on a key decides what the key holds.** -/
theorem replay_split (xs ys : List ε) (a : ε) :
    L.replay (xs ++ a :: ys) (L.key a) = L.val a ∨
      ∃ b ∈ ys, L.key b = L.key a ∧ L.replay (xs ++ a :: ys) (L.key a) = L.val b := by
  induction ys using List.reverseRecOn with
  | nil => left; simp
  | append_singleton ys y ih =>
    have hsplit : xs ++ a :: (ys ++ [y]) = (xs ++ a :: ys) ++ [y] := by simp
    rw [hsplit, replay_snoc]
    by_cases hk : L.key a = L.key y
    · right
      refine ⟨y, by simp, hk.symm, ?_⟩
      rw [hk, write_self]
    · rw [write_of_ne L hk]
      refine ih.imp id ?_
      rintro ⟨b, hb, hkb, he⟩
      exact ⟨b, by simp [hb], hkb, he⟩

theorem replay_eq_none_or (es : List ε) (k : κ) :
    L.replay es k = none ∨ ∃ e ∈ es, L.key e = k ∧ L.replay es k = L.val e := by
  induction es using List.reverseRecOn with
  | nil => left; rfl
  | append_singleton es e ih =>
    rw [replay_snoc]
    by_cases hk : k = L.key e
    · right
      refine ⟨e, by simp, hk.symm, ?_⟩
      rw [hk, write_self]
    · rw [write_of_ne L hk]
      refine ih.imp id ?_
      rintro ⟨e', he', hke', h⟩
      exact ⟨e', by simp [he'], hke', h⟩

namespace Valid

variable {es : List ε} {r : ℕ}

theorem pos_and_carries_of_mem (h : L.Valid es) (he : e ∈ es) :
    0 < L.rev e ∧ ∀ v, L.val e = some v → L.valRev v = L.rev e := by
  induction h with
  | nil => cases he
  | snoc _ _ pos carries _ ih =>
    rcases mem_append.1 he with he | he
    · exact ih he
    · obtain rfl := mem_singleton.1 he
      exact ⟨pos, carries⟩

theorem carries_of_mem (h : L.Valid es) (he : e ∈ es) {v : ν} (hv : L.val e = some v) :
    L.valRev v = L.rev e :=
  (h.pos_and_carries_of_mem he).2 v hv

theorem pos_of_mem (h : L.Valid es) (he : e ∈ es) : 0 < L.rev e :=
  (h.pos_and_carries_of_mem he).1

/-- What an entry in the middle of a log was admitted by. -/
theorem admitted_of_split (h : L.Valid (xs ++ e :: ys)) :
    L.Valid xs ∧ L.Admits e (L.replay xs (L.key e)) := by
  generalize hes : xs ++ e :: ys = es at h
  induction h generalizing ys with
  | nil => simp at hes
  | @snoc es e' valid _ _ _ admitted ih =>
    cases ys using List.reverseRecOn with
    | nil =>
      obtain ⟨rfl, rfl⟩ := append_singleton_inj.1 hes
      exact ⟨valid, admitted⟩
    | append_singleton ys y =>
      have hsplit : xs ++ e :: (ys ++ [y]) = (xs ++ e :: ys) ++ [y] := by simp
      exact ih (append_singleton_inj.1 (hsplit.symm.trans hes)).1

theorem pos_of_replay (h : L.Valid es) {k : κ} {v : ν} (hv : L.replay es k = some v) :
    0 < L.valRev v := by
  rcases replay_eq_none_or (L := L) es k with hn | ⟨e, he, -, hval⟩
  · rw [hn] at hv; cases hv
  · rw [h.carries_of_mem he (hval.symm.trans hv)]
    exact h.pos_of_mem he

theorem pairwise_rev (h : L.Valid es) : es.Pairwise fun a b => L.rev a < L.rev b := by
  induction h with
  | nil => exact List.Pairwise.nil
  | snoc _ ascends _ _ _ ih =>
    refine pairwise_append.2 ⟨ih, pairwise_singleton _ _, ?_⟩
    intro a ha b hb
    obtain rfl := mem_singleton.1 hb
    exact ascends a ha

/-- **A snapshot is the one taken right after the last entry it covers.** -/
theorem upTo_cases (h : L.Valid es) (limit : ℕ) :
    (L.upTo limit es = [] ∧ ∀ e ∈ es, limit < L.rev e) ∨
      ∃ e ∈ es, L.rev e ≤ limit ∧ (∀ e' ∈ es, L.rev e' ≤ limit → L.rev e' ≤ L.rev e) ∧
        L.upTo limit es = L.upTo (L.rev e) es := by
  induction h with
  | nil => exact .inl ⟨rfl, fun _ h => by cases h⟩
  | @snoc es e _ ascends _ _ _ ih =>
    have hmax : ∀ e' ∈ es ++ [e], L.rev e' ≤ L.rev e := by
      intro e' he'
      rcases mem_append.1 he' with he' | he'
      · exact (ascends e' he').le
      · rw [mem_singleton.1 he']
    by_cases hle : L.rev e ≤ limit
    · refine .inr ⟨e, by simp, hle, fun e' he' _ => hmax e' he', ?_⟩
      rw [upTo_eq_self hmax, upTo_eq_self fun e' he' => (hmax e' he').trans hle]
    · have hlt := Nat.lt_of_not_le hle
      rw [upTo_snoc hlt]
      rcases ih with ⟨hnil, hall⟩ | ⟨a, ha, hale, hamax, hup⟩
      · refine .inl ⟨hnil, fun e' he' => ?_⟩
        rcases mem_append.1 he' with he' | he'
        · exact hall e' he'
        · rwa [mem_singleton.1 he']
      · refine .inr ⟨a, mem_append_left _ ha, hale, fun e' he' hle' => ?_, ?_⟩
        · rcases mem_append.1 he' with he' | he'
          · exact hamax e' he' hle'
          · rw [mem_singleton.1 he'] at hle'
            exact absurd hle' hle
        · rw [hup, upTo_snoc (ascends a ha)]

/-- A key is at revision zero, or at the revision of an entry on it. -/
theorem revOf_replay (h : L.Valid es) (k : κ) :
    L.revOf (L.replay es k) = 0 ∨
      ∃ e ∈ es, L.key e = k ∧ L.revOf (L.replay es k) = L.rev e := by
  rcases replay_eq_none_or (L := L) es k with hn | ⟨e, he, hk, hv⟩
  · left; rw [hn]; rfl
  · cases hval : L.val e with
    | none => left; rw [hv, hval]; rfl
    | some v =>
      right
      refine ⟨e, he, hk, ?_⟩
      rw [hv, hval]
      exact h.carries_of_mem he hval

theorem revOf_replay_lt (h : L.Valid es) (hr : 0 < r) (hes : ∀ e ∈ es, L.rev e < r) (k : κ) :
    L.revOf (L.replay es k) < r := by
  rcases h.revOf_replay k with h0 | ⟨e, he, -, hv⟩
  · omega
  · rw [hv]; exact hes e he

/-- Once an entry has used a positive revision of a key, the key is never at it again. -/
theorem stale_of_expects (h : L.Valid es) (ha : a ∈ es) (hr : 0 < r) (hexp : L.Expects a r) :
    r < L.rev a ∧ L.revOf (L.replay es (L.key a)) ≠ r := by
  induction h with
  | nil => cases ha
  | @snoc es e valid ascends pos carries admitted ih =>
    -- What the new entry writes carries its own revision, which no older entry knew.
    have hval : L.revOf (L.val e) = 0 ∨ L.revOf (L.val e) = L.rev e := by
      cases hv : L.val e with
      | none => left; rfl
      | some v => right; exact carries v hv
    rw [replay_snoc]
    rcases mem_append.1 ha with ha | ha
    · -- An older entry: its revision is below the new one, so the new value is past `r` too.
      obtain ⟨hlt, hne⟩ := ih ha
      refine ⟨hlt, ?_⟩
      by_cases hk : L.key a = L.key e
      · rw [hk, write_self]
        have := ascends a ha
        omega
      · rwa [write_of_ne L hk]
    · obtain rfl := mem_singleton.1 ha
      have hrev : L.revOf (L.replay es (L.key a)) = r := hexp _ admitted
      have hlt : r < L.rev a := hrev ▸ valid.revOf_replay_lt pos ascends _
      rw [write_self]
      exact ⟨hlt, by omega⟩

/-- **A positive revision of a key is used by at most one entry.** -/
theorem expects_unique (h : L.Valid es) (hr : 0 < r) :
    es.Pairwise fun a b => L.key a = L.key b → L.Expects a r → ¬ L.Expects b r := by
  induction h with
  | nil => exact List.Pairwise.nil
  | snoc valid _ _ _ admitted ih =>
    refine pairwise_append.2 ⟨ih, pairwise_singleton _ _, ?_⟩
    intro a ha b hb hk hexp hexp'
    obtain rfl := mem_singleton.1 hb
    refine (valid.stale_of_expects ha hr hexp).2 ?_
    rw [hk]
    exact hexp' _ admitted

/-- **Before an entry that expects its key to be absent, what an older entry wrote was removed.** -/
theorem exists_removal {zs : List ε} (h : L.Valid (xs ++ a :: (ys ++ b :: zs)))
    (hk : L.key b = L.key a) (hexp : L.Expects b 0) :
    ∃ c ∈ a :: ys, L.key c = L.key a ∧ L.val c = none := by
  have hsplit : xs ++ a :: (ys ++ b :: zs) = (xs ++ a :: ys) ++ b :: zs := by simp
  obtain ⟨valid, admitted⟩ := (hsplit ▸ h).admitted_of_split
  have hnone : L.replay (xs ++ a :: ys) (L.key a) = none := by
    have hzero : L.revOf (L.replay (xs ++ a :: ys) (L.key b)) = 0 := hexp _ admitted
    rw [hk] at hzero
    cases hv : L.replay (xs ++ a :: ys) (L.key a) with
    | none => rfl
    | some v =>
      rw [hv] at hzero
      exact absurd hzero (valid.pos_of_replay hv).ne'
  rcases replay_split (L := L) xs ys a with hv | ⟨c, hc, hkc, hv⟩
  · exact ⟨a, mem_cons_self, rfl, hv.symm.trans hnone⟩
  · exact ⟨c, mem_cons_of_mem _ hc, hkc, hv.symm.trans hnone⟩

end Valid

/-- **A property of a key that an entry established and that no longer holds was ended by an entry
on the key in between.** -/
theorem exists_between {p : Option ν → Prop} (ha : p (L.val a))
    (hnot : ¬ p (L.replay (xs ++ a :: ys) (L.key a))) :
    ∃ b ∈ ys, L.key b = L.key a ∧ ¬ p (L.val b) := by
  rcases replay_split (L := L) xs ys a with hv | ⟨b, hb, hk, hv⟩
  · rw [hv] at hnot
    exact absurd ha hnot
  · rw [hv] at hnot
    exact ⟨b, hb, hk, hnot⟩

end Spec

end Log

end Hsp
