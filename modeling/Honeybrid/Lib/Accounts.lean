import Mathlib.Data.List.Nodup

/-!
# Accounts of owned and released objects

Objects are created, owned for a while and released. An account lists the objects that are owned and
the releases so far, in their order; a rank tells the objects that exist from those that are still
to come. A transfer gives up some objects and takes on new ones, and makes some releases on the way.

Each object is to be released at most once, and not while it is owned. A transfer keeps this when it
releases what it gives up, or objects that are not taken on; it breaks it when it releases something
twice, or something that is owned afterwards. What is broken stays so, as every object that is given
up is released.

## Main definitions

* `Account`: the objects that are owned, and the releases.
* `Account.Once`: no object is released twice, and none that is owned.
* `Account.Transfer`: what a transfer gives up, takes on and releases.

## Main results

* `Account.Transfer.valid`, `Account.Transfer.once`, `Account.Transfer.once_before`,
  `Account.Transfer.not_once_of_dup`, `Account.Transfer.not_once_of_owned`.
-/

universe u

/-- The objects that are owned, the releases so far, and a bound on the rank of what exists. -/
structure Account (α : Type u) where
  owned : List α
  released : List α
  next : ℕ

namespace Account

variable {α : Type u} {rank : α → ℕ} {A B : Account α} {gone fresh calls : List α} {x : α}

/-- Each object is owned once, and everything there is has a rank below the bound. -/
structure Valid (rank : α → ℕ) (A : Account α) : Prop where
  nodup : A.owned.Nodup
  owned_lt : ∀ x ∈ A.owned, rank x < A.next
  released_lt : ∀ x ∈ A.released, rank x < A.next

/-- Each object has been released at most once, and none is still owned. -/
structure Once (A : Account α) : Prop where
  nodup : A.released.Nodup
  unowned : ∀ x ∈ A.released, x ∉ A.owned

/-- The account `B` after the objects `gone` were given up, the new objects `fresh` taken on, and
the releases `calls` made. -/
structure Transfer (rank : α → ℕ) (A B : Account α) (gone fresh calls : List α) : Prop where
  owned : ∃ kept, A.owned.Perm (gone ++ kept) ∧ B.owned.Perm (fresh ++ kept)
  released : B.released = A.released ++ calls
  next : A.next ≤ B.next
  nodup : fresh.Nodup
  fresh_ge : ∀ x ∈ fresh, A.next ≤ rank x
  fresh_lt : ∀ x ∈ fresh, rank x < B.next
  calls_lt : ∀ x ∈ calls, rank x < B.next
  gone_released : gone ⊆ calls

variable (h : Transfer rank A B gone fresh calls)

include h

theorem Transfer.valid (hA : A.Valid rank) : B.Valid rank := by
  obtain ⟨kept, hA', hB'⟩ := h.owned
  have hkept : ∀ x ∈ kept, x ∈ A.owned := fun x hx =>
    hA'.mem_iff.mpr (List.mem_append_right _ hx)
  refine ⟨hB'.nodup_iff.mpr ?_, fun x hx => ?_, fun x hx => ?_⟩
  · refine List.nodup_append'.mpr ⟨h.nodup, ?_, fun x hx hk => ?_⟩
    · exact (List.nodup_append'.mp (hA'.nodup_iff.mp hA.nodup)).2.1
    · exact absurd (hA.owned_lt x (hkept x hk)) (Nat.not_lt.mpr (h.fresh_ge x hx))
  · obtain hx | hx := List.mem_append.mp (hB'.mem_iff.mp hx)
    · exact h.fresh_lt x hx
    · exact Nat.lt_of_lt_of_le (hA.owned_lt x (hkept x hx)) h.next
  · rw [h.released] at hx
    obtain hx | hx := List.mem_append.mp hx
    · exact Nat.lt_of_lt_of_le (hA.released_lt x hx) h.next
    · exact h.calls_lt x hx

/-- A transfer that releases once what it gives up, or new objects that it does not take on. -/
theorem Transfer.once (hA : A.Valid rank) (hone : A.Once) (hcalls : calls.Nodup)
    (hfrom : ∀ x ∈ calls, x ∈ gone ∨ (A.next ≤ rank x ∧ x ∉ fresh)) : B.Once := by
  obtain ⟨kept, hA', hB'⟩ := h.owned
  have hgone : ∀ x ∈ gone, x ∈ A.owned := fun x hx => hA'.mem_iff.mpr (List.mem_append_left _ hx)
  have hkept : ∀ x ∈ kept, x ∈ A.owned := fun x hx =>
    hA'.mem_iff.mpr (List.mem_append_right _ hx)
  have hdisj := (List.nodup_append'.mp (hA'.nodup_iff.mp hA.nodup)).2.2
  refine ⟨?_, fun x hx hown => ?_⟩
  · rw [h.released]
    refine List.nodup_append'.mpr ⟨hone.nodup, hcalls, fun x hx hc => ?_⟩
    obtain hg | ⟨hge, -⟩ := hfrom x hc
    · exact hone.unowned x hx (hgone x hg)
    · exact absurd (hA.released_lt x hx) (Nat.not_lt.mpr hge)
  · rw [h.released] at hx
    obtain hx | hx := List.mem_append.mp hx
    · obtain hf | hk := List.mem_append.mp (hB'.mem_iff.mp hown)
      · exact absurd (hA.released_lt x hx) (Nat.not_lt.mpr (h.fresh_ge x hf))
      · exact hone.unowned x hx (hkept x hk)
    · obtain hf | hk := List.mem_append.mp (hB'.mem_iff.mp hown)
      · obtain hg | ⟨-, hnot⟩ := hfrom x hx
        · exact absurd (hA.owned_lt x (hgone x hg)) (Nat.not_lt.mpr (h.fresh_ge x hf))
        · exact hnot hf
      · obtain hg | ⟨hge, -⟩ := hfrom x hx
        · exact hdisj hg hk
        · exact absurd (hA.owned_lt x (hkept x hk)) (Nat.not_lt.mpr hge)

/-- What is broken stays broken. -/
theorem Transfer.once_before (hone : B.Once) : A.Once := by
  obtain ⟨kept, hA', hB'⟩ := h.owned
  have hnodup := hone.nodup
  rw [h.released] at hnodup
  obtain ⟨hrel, -, hdisj⟩ := List.nodup_append'.mp hnodup
  refine ⟨hrel, fun x hx hown => ?_⟩
  obtain hg | hk := List.mem_append.mp (hA'.mem_iff.mp hown)
  · exact hdisj hx (h.gone_released hg)
  · refine hone.unowned x ?_ (hB'.mem_iff.mpr (List.mem_append_right _ hk))
    rw [h.released]
    exact List.mem_append_left _ hx

theorem Transfer.not_once_of_dup (hdup : ¬calls.Nodup) : ¬B.Once := by
  intro hone
  have hnodup := hone.nodup
  rw [h.released] at hnodup
  exact hdup (List.nodup_append'.mp hnodup).2.1

theorem Transfer.not_once_of_owned (hx : x ∈ calls) (hown : x ∈ B.owned) : ¬B.Once := by
  intro hone
  refine hone.unowned x ?_ hown
  rw [h.released]
  exact List.mem_append_right _ hx

end Account
