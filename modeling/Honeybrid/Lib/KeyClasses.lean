import Mathlib.Data.Finset.Card

/-!
# The classes of the keys of a tree

A comparison that reads only a part of its keys takes keys with the same part for one another. The
keys of a tree are then known up to their class, and a tree has as many entries as its keys have
classes.

## Main definitions

* `Std.TreeMap.classes f t`: the classes of the keys of `t`, where `f` gives the class of a key.

## Main results

* `Std.TreeMap.class_mem_classes`: a class is there exactly when its keys are found.
* `Std.TreeMap.card_classes`: the number of classes is the number of entries.
-/

universe u v w

namespace Std.TreeMap

variable {α : Type u} {β : Type v} {γ : Type w} [DecidableEq γ] {cmp : α → α → Ordering}
  [TransCmp cmp] {f : α → γ} {t : TreeMap α β cmp} {k : α} {v : β} {c : γ}

omit [TransCmp cmp] in
/-- The classes of the keys. -/
def classes (f : α → γ) (t : TreeMap α β cmp) : Finset γ :=
  (t.toList.map fun e => f e.1).toFinset

omit [TransCmp cmp] in
@[simp] theorem classes_empty : (∅ : TreeMap α β cmp).classes f = ∅ :=
  rfl

theorem class_mem_classes (hf : ∀ a b, cmp a b = .eq ↔ f a = f b) :
    f k ∈ t.classes f ↔ t[k]? ≠ none := by
  simp only [classes, List.mem_toFinset, List.mem_map]
  constructor
  · rintro ⟨e, he, heq⟩
    rw [getElem?_congr ((hf k e.1).mpr heq.symm),
      (mem_toList_iff_getKey?_eq_some_and_getElem?_eq_some.mp he).2]
    exact Option.some_ne_none e.2
  · intro h
    obtain ⟨v, hv⟩ := Option.ne_none_iff_exists'.mp h
    obtain ⟨k', hk', hmem⟩ := getElem?_eq_some_iff_exists_compare_eq_eq_and_mem_toList.mp hv
    exact ⟨(k', v), hmem, ((hf _ _).mp hk').symm⟩

theorem mem_classes (hf : ∀ a b, cmp a b = .eq ↔ f a = f b) :
    c ∈ t.classes f ↔ ∃ k, f k = c ∧ t[k]? ≠ none := by
  constructor
  · intro h
    obtain ⟨e, -, rfl⟩ := List.mem_map.mp (List.mem_toFinset.mp h)
    exact ⟨e.1, rfl, (class_mem_classes hf).mp h⟩
  · rintro ⟨k, rfl, hk⟩
    exact (class_mem_classes hf).mpr hk

theorem card_classes (hf : ∀ a b, cmp a b = .eq ↔ f a = f b) : (t.classes f).card = t.size := by
  have hnodup : (t.toList.map fun e => f e.1).Nodup :=
    List.pairwise_map.mpr (distinct_keys_toList.imp fun hne heq => hne ((hf _ _).mpr heq))
  rw [classes, List.toFinset_card_of_nodup hnodup, List.length_map, length_toList]

end Std.TreeMap
