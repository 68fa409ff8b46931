import ComponentLang.Text.Basic

/-!
# Tables

A table maps texts to values and remembers the order in which its keys first came.

* `Table` : pairs with distinct keys;
* `Table.insert` : a new key goes last, a known key keeps its place and gets the new value
  (`keys_put`);
* `Table.get?` : look-up;
* `Table.merge` : the pairs of a second table inserted in their order.
-/

namespace ComponentLang

namespace Entries

variable {α : Type}

/-- The keys, in order. -/
def keys (es : List (Text × α)) : List Text := es.map Prod.fst

/-- Sets the value of `k`, in its place if it is known and at the end if it is new. -/
def put (k : Text) (v : α) : List (Text × α) → List (Text × α)
  | [] => [(k, v)]
  | e :: es => if e.1 = k then (k, v) :: es else e :: put k v es

/-- The value of `k`. -/
def get? (k : Text) : List (Text × α) → Option α
  | [] => none
  | e :: es => if e.1 = k then some e.2 else get? k es

@[simp] theorem keys_nil : keys ([] : List (Text × α)) = [] := rfl

@[simp] theorem keys_cons (e : Text × α) (es : List (Text × α)) :
    keys (e :: es) = e.1 :: keys es := rfl

theorem keys_put (k : Text) (v : α) (es : List (Text × α)) :
    keys (put k v es) = if k ∈ keys es then keys es else keys es ++ [k] := by
  induction es with
  | nil => simp [put]
  | cons e es ih =>
    by_cases h : e.1 = k
    · simp [put, h]
    · have hk : k ≠ e.1 := fun hc => h hc.symm
      rw [put, if_neg h, keys_cons, keys_cons, ih]
      by_cases hm : k ∈ keys es
      · simp [hm]
      · simp [hm, hk]

theorem nodup_put (k : Text) (v : α) {es : List (Text × α)} (h : (keys es).Nodup) :
    (keys (put k v es)).Nodup := by
  rw [keys_put]
  split
  · exact h
  · next hk =>
    rw [List.nodup_append]
    refine ⟨h, by simp, ?_⟩
    intro a ha b hb hab
    rw [List.mem_singleton] at hb
    exact hk (hb ▸ hab ▸ ha)

end Entries

/-- Pairs of a key and a value, each key once, in the order in which the keys first came. -/
structure Table (α : Type) where
  entries : List (Text × α)
  distinct : (Entries.keys entries).Nodup
deriving DecidableEq

namespace Table

variable {α : Type}

/-- No pairs. -/
def empty : Table α := ⟨[], List.nodup_nil⟩

instance : Inhabited (Table α) := ⟨empty⟩

@[ext] theorem ext {a b : Table α} (h : a.entries = b.entries) : a = b := by
  cases a; cases b; cases h; rfl

/-- Sets the value of a key; a known key keeps its place. -/
def insert (t : Table α) (k : Text) (v : α) : Table α :=
  ⟨Entries.put k v t.entries, Entries.nodup_put k v t.distinct⟩

/-- The value of a key. -/
def get? (t : Table α) (k : Text) : Option α := Entries.get? k t.entries

/-- Inserts the pairs of a list in their order. -/
def insertAll (t : Table α) (es : List (Text × α)) : Table α :=
  es.foldl (fun t e => t.insert e.1 e.2) t

/-- Inserts the pairs of `u`, which win over those of `t`. -/
def merge (t u : Table α) : Table α := t.insertAll u.entries

/-- There are no pairs. -/
def isEmpty (t : Table α) : Bool := t.entries.isEmpty

@[simp] theorem entries_empty : (empty : Table α).entries = [] := rfl

@[simp] theorem entries_insert (t : Table α) (k : Text) (v : α) :
    (t.insert k v).entries = Entries.put k v t.entries := rfl

end Table

end ComponentLang
