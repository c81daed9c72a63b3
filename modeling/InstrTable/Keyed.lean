/-!
Tables from names to values in the order in which the names first came. Giving a
name a new value keeps its place.
-/

namespace InstrTable

namespace Keyed

def put {α : Type} (key : String) (value : α) : List (String × α) → List (String × α)
  | [] => [(key, value)]
  | e :: es => if e.1 = key then (key, value) :: es else e :: put key value es

theorem keys_put {α : Type} (key : String) (value : α) (es : List (String × α)) :
    (put key value es).map Prod.fst =
      if key ∈ es.map Prod.fst then es.map Prod.fst else es.map Prod.fst ++ [key] := by
  induction es with
  | nil => simp [put]
  | cons e es ih =>
    by_cases h : e.1 = key
    · simp [put, h]
    · simp only [put, h, if_false, List.map_cons, ih, List.mem_cons, Ne.symm h, false_or]
      split <;> simp

theorem nodup_put {α : Type} (key : String) (value : α) {es : List (String × α)}
    (h : (es.map Prod.fst).Nodup) : ((put key value es).map Prod.fst).Nodup := by
  rw [keys_put]
  split
  · exact h
  · next hk =>
    rw [List.nodup_append]
    exact ⟨h, by simp, by simpa using fun a v ha hk' => hk (by simpa using ⟨v, hk' ▸ ha⟩)⟩

end Keyed

/-- A table without repeated names. -/
structure Keyed (α : Type) where
  entries : List (String × α)
  nodup : (entries.map Prod.fst).Nodup
  deriving DecidableEq, Repr

namespace Keyed

variable {α β : Type}

def empty : Keyed α := ⟨[], List.nodup_nil⟩

instance : Inhabited (Keyed α) := ⟨empty⟩

def keys (t : Keyed α) : List String := t.entries.map Prod.fst

def values (t : Keyed α) : List α := t.entries.map Prod.snd

def get? (t : Keyed α) (key : String) : Option α := t.entries.lookup key

def contains (t : Keyed α) (key : String) : Bool := (t.get? key).isSome

def insert (t : Keyed α) (key : String) (value : α) : Keyed α :=
  ⟨put key value t.entries, nodup_put key value t.nodup⟩

/-- Gives `key` a value only if it has none. -/
def insertNew (t : Keyed α) (key : String) (value : α) : Keyed α :=
  if t.contains key then t else t.insert key value

/-- The table of a list of pairs. Of two values for a name the later one counts. -/
def ofList (es : List (String × α)) : Keyed α :=
  es.foldl (fun t e => t.insert e.1 e.2) empty

@[simp] theorem keys_empty : (empty : Keyed α).keys = [] := rfl

@[simp] theorem get?_empty (key : String) : (empty : Keyed α).get? key = none := rfl

theorem keys_insert (t : Keyed α) (key : String) (value : α) :
    (t.insert key value).keys = if key ∈ t.keys then t.keys else t.keys ++ [key] :=
  keys_put key value t.entries

theorem lookup_put (key key' : String) (value : α) (es : List (String × α)) :
    (put key value es).lookup key' = if key' = key then some value else es.lookup key' := by
  have miss {a b : String} (h : ¬a = b) : (a == b) = false := by simpa using h
  induction es with
  | nil => by_cases h : key' = key <;> simp [put, h]
  | cons e es ih =>
    obtain ⟨k, v⟩ := e
    by_cases hk : k = key
    · subst hk
      by_cases h : key' = k <;> simp [put, List.lookup_cons, h, miss]
    · by_cases h : key' = k
      · subst h
        simp [put, hk]
      · simp [put, List.lookup_cons, hk, ih, h, miss]

@[simp] theorem get?_insert (t : Keyed α) (key key' : String) (value : α) :
    (t.insert key value).get? key' = if key' = key then some value else t.get? key' :=
  lookup_put key key' value t.entries

end Keyed

end InstrTable
