import ComponentLang.Table
import Mathlib.Tactic.SplitIfs

/-!
# Merging tables

* `Table.upsert comb t k v` : gives the key `k` what `comb` makes of its old value and `v`;
* `Table.absorb comb t es` : the same for a list of pairs. Tables are merged this way, and so are the
  sections of heads;
* `Combines comb` : what `comb` has to satisfy for merges to be associative;
* `absorb_upsert` : a pair may be taken up before a table is merged, or after;
* `entries_insertAll` : pairs with new keys go last, in their order;
* `Table.merge_assoc`, `Table.empty_merge` : tables are a monoid.
-/

namespace ComponentLang

/-! ## Pairs -/

namespace Entries

variable {α : Type}

theorem get?_put_self (k : Text) (v : α) (es : List (Text × α)) : get? k (put k v es) = some v := by
  induction es with
  | nil => simp [put, get?]
  | cons e es ih =>
    by_cases h : e.1 = k
    · simp [put, get?, h]
    · simp [put, get?, h, ih]

theorem get?_put_ne {k k' : Text} (h : k ≠ k') (v : α) (es : List (Text × α)) :
    get? k (put k' v es) = get? k es := by
  induction es with
  | nil => simp [put, get?, h.symm]
  | cons e es ih =>
    by_cases he : e.1 = k'
    · simp [put, get?, he, h.symm]
    · simp [put, get?, he, ih]

theorem put_put_self (k : Text) (v w : α) (es : List (Text × α)) :
    put k w (put k v es) = put k w es := by
  induction es with
  | nil => simp [put]
  | cons e es ih =>
    by_cases h : e.1 = k
    · simp [put, h]
    · simp [put, h, ih]

/-- A known key keeps its place, so other keys may come before it or after it. -/
theorem put_comm {k k' : Text} (h : k ≠ k') (v v' : α) {es : List (Text × α)} (hk : k ∈ keys es) :
    put k v (put k' v' es) = put k' v' (put k v es) := by
  induction es with
  | nil => simp at hk
  | cons e es ih =>
    rw [keys_cons, List.mem_cons] at hk
    by_cases he : e.1 = k
    · simp [put, he, h]
    · have hrest := ih (hk.resolve_left (Ne.symm he))
      by_cases he' : e.1 = k'
      · simp [put, he', Ne.symm h]
      · simp [put, he, he', hrest]

theorem mem_keys_put (k : Text) (v : α) (es : List (Text × α)) : k ∈ keys (put k v es) := by
  rw [keys_put]
  split_ifs with h
  · exact h
  · simp

theorem mem_keys_put_of_mem {k : Text} (k' : Text) (v : α) {es : List (Text × α)}
    (h : k ∈ keys es) : k ∈ keys (put k' v es) := by
  rw [keys_put]
  split_ifs
  · exact h
  · exact List.mem_append_left _ h

theorem get?_eq_none {k : Text} {es : List (Text × α)} (h : k ∉ keys es) : get? k es = none := by
  induction es with
  | nil => rfl
  | cons e es ih =>
    rw [keys_cons, List.mem_cons, not_or] at h
    rw [get?, if_neg (Ne.symm h.1), ih h.2]

/-- A new key goes last. -/
theorem put_of_not_mem {k : Text} {es : List (Text × α)} (h : k ∉ keys es) (v : α) :
    put k v es = es ++ [(k, v)] := by
  induction es with
  | nil => rfl
  | cons e es ih =>
    rw [keys_cons, List.mem_cons, not_or] at h
    rw [put, if_neg (Ne.symm h.1), ih h.2, List.cons_append]

end Entries

/-! ## Tables -/

/-- Nothing is added to a missing value, and what is added twice may be put together first. -/
structure Combines {α : Type} (comb : Option α → α → α) : Prop where
  none : ∀ v, comb none v = v
  assoc : ∀ o v w, comb (some (comb o v)) w = comb o (comb (some v) w)

namespace Table

variable {α : Type} (comb : Option α → α → α)

/-- Gives a key what `comb` makes of its old value, if it has one, and a new one. -/
def upsert (t : Table α) (k : Text) (v : α) : Table α := t.insert k (comb (t.get? k) v)

/-- Takes up pairs in their order. -/
def absorb (t : Table α) (es : List (Text × α)) : Table α :=
  es.foldl (fun t e => t.upsert comb e.1 e.2) t

theorem get?_upsert_self (t : Table α) (k : Text) (v : α) :
    (t.upsert comb k v).get? k = some (comb (t.get? k) v) := Entries.get?_put_self k _ _

theorem get?_upsert_ne (t : Table α) {k k' : Text} (h : k ≠ k') (v : α) :
    (t.upsert comb k' v).get? k = t.get? k := Entries.get?_put_ne h _ _

theorem upsert_comm {t : Table α} {k k' : Text} (h : k ≠ k') (hk : k ∈ Entries.keys t.entries)
    (v v' : α) : (t.upsert comb k' v').upsert comb k v = (t.upsert comb k v).upsert comb k' v' := by
  ext1
  show Entries.put k (comb ((t.upsert comb k' v').get? k) v) (Entries.put k' _ t.entries) =
    Entries.put k' (comb ((t.upsert comb k v).get? k') v') (Entries.put k _ t.entries)
  rw [get?_upsert_ne comb t h, get?_upsert_ne comb t h.symm]
  exact Entries.put_comm h _ _ hk

variable {comb}

theorem upsert_upsert (hcomb : Combines comb) (t : Table α) (k : Text) (v w : α) :
    (t.upsert comb k v).upsert comb k w = t.upsert comb k (comb (some v) w) := by
  ext1
  show Entries.put k (comb ((t.upsert comb k v).get? k) w) (Entries.put k _ t.entries) =
    Entries.put k (comb (t.get? k) (comb (some v) w)) t.entries
  rw [get?_upsert_self, hcomb.assoc, Entries.put_put_self]

/-- A known key that the pairs do not have may be set before them or after them. -/
theorem upsert_absorb {t : Table α} {k : Text} (ht : k ∈ Entries.keys t.entries)
    {es : List (Text × α)} (hes : k ∉ Entries.keys es) (v : α) :
    (t.absorb comb es).upsert comb k v = (t.upsert comb k v).absorb comb es := by
  induction es generalizing t with
  | nil => rfl
  | cons e es ih =>
    rw [Entries.keys_cons, List.mem_cons, not_or] at hes
    have hmem : k ∈ Entries.keys (t.upsert comb e.1 e.2).entries :=
      Entries.mem_keys_put_of_mem _ _ ht
    show ((t.upsert comb e.1 e.2).absorb comb es).upsert comb k v =
      ((t.upsert comb k v).upsert comb e.1 e.2).absorb comb es
    rw [ih hmem hes.2, upsert_comm comb hes.1 ht]

/-- **A pair may be taken up before a table is merged, or after.** -/
theorem absorb_upsert (hcomb : Combines comb) (t u : Table α) (k : Text) (v : α) :
    t.absorb comb (u.upsert comb k v).entries = (t.absorb comb u.entries).upsert comb k v := by
  obtain ⟨es, hes⟩ := u
  show t.absorb comb (Entries.put k (comb (Entries.get? k es) v) es) =
    (t.absorb comb es).upsert comb k v
  induction es generalizing t with
  | nil =>
    show t.upsert comb k (comb none v) = t.upsert comb k v
    rw [hcomb.none]
  | cons e es ih =>
    rw [Entries.keys_cons, List.nodup_cons] at hes
    by_cases he : e.1 = k
    · subst he
      rw [Entries.get?, if_pos rfl, Entries.put, if_pos rfl]
      show (t.upsert comb e.1 (comb (some e.2) v)).absorb comb es =
        ((t.upsert comb e.1 e.2).absorb comb es).upsert comb e.1 v
      rw [upsert_absorb (Entries.mem_keys_put _ _ _) hes.1, upsert_upsert hcomb]
    · rw [Entries.get?, if_neg he, Entries.put, if_neg he]
      exact ih (t.upsert comb e.1 e.2) hes.2

/-- Taking up the pairs of a table that has taken up pairs is taking up both. -/
theorem absorb_absorb (hcomb : Combines comb) (t u : Table α) (es : List (Text × α)) :
    t.absorb comb (u.absorb comb es).entries = (t.absorb comb u.entries).absorb comb es := by
  induction es generalizing u with
  | nil => rfl
  | cons e es ih =>
    show t.absorb comb ((u.upsert comb e.1 e.2).absorb comb es).entries =
      ((t.absorb comb u.entries).upsert comb e.1 e.2).absorb comb es
    rw [ih, absorb_upsert hcomb]

/-- Pairs with new keys go last. -/
theorem entries_absorb (hcomb : Combines comb) {t : Table α} {es : List (Text × α)}
    (hes : (Entries.keys es).Nodup) (hnew : ∀ k ∈ Entries.keys es, k ∉ Entries.keys t.entries) :
    (t.absorb comb es).entries = t.entries ++ es := by
  induction es generalizing t with
  | nil => simp [absorb]
  | cons e es ih =>
    rw [Entries.keys_cons, List.nodup_cons] at hes
    have hk : e.1 ∉ Entries.keys t.entries := hnew e.1 (by simp)
    have hput : (t.upsert comb e.1 e.2).entries = t.entries ++ [e] := by
      rw [upsert, entries_insert, get?, Entries.get?_eq_none hk, hcomb.none,
        Entries.put_of_not_mem hk]
    show ((t.upsert comb e.1 e.2).absorb comb es).entries = t.entries ++ e :: es
    rw [ih hes.2, hput, List.append_assoc, List.singleton_append]
    intro k hmem
    rw [hput]
    intro hkeys
    simp only [Entries.keys, List.map_append, List.mem_append, List.map_cons, List.map_nil,
      List.mem_singleton] at hkeys
    rcases hkeys with hkeys | rfl
    · exact hnew k (by simp [hmem]) hkeys
    · exact hes.1 hmem

theorem empty_absorb (hcomb : Combines comb) (u : Table α) :
    (empty : Table α).absorb comb u.entries = u := by
  ext1
  rw [entries_absorb hcomb u.distinct (by simp)]
  rfl

/-! ## Merging -/

theorem combines_last : Combines fun (_ : Option α) (v : α) => v := ⟨fun _ => rfl, fun _ _ _ => rfl⟩

/-- New keys go last, in their order. -/
theorem entries_insertAll {t : Table α} {es : List (Text × α)}
    (h : (Entries.keys (t.entries ++ es)).Nodup) : (t.insertAll es).entries = t.entries ++ es := by
  rw [Entries.keys, List.map_append, List.nodup_append] at h
  exact entries_absorb combines_last h.2.1 fun k hk hold => h.2.2 k hold k hk rfl

theorem merge_assoc (t u v : Table α) : (t.merge u).merge v = t.merge (u.merge v) :=
  (absorb_absorb combines_last t u v.entries).symm

theorem empty_merge (u : Table α) : (empty : Table α).merge u = u := empty_absorb combines_last u

theorem merge_empty (t : Table α) : t.merge empty = t := rfl

end Table

end ComponentLang
