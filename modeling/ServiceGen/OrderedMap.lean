/-!
Maps from names to values that remember the order in which the names first came.  Inserting under
a name that is there replaces its value in place.  The view of a map is its list of entries; the
lemmas say what inserting does to the names and to looking a name up.
-/

namespace ServiceGen

universe u v

/-- Entries in order of first insertion. -/
structure OrderedMap (V : Type u) where
  entries : List (String × V)
deriving Repr, BEq, DecidableEq

namespace OrderedMap

variable {V : Type u} {W : Type v}

def empty : OrderedMap V := ⟨[]⟩

instance : Inhabited (OrderedMap V) := ⟨empty⟩

def keys (m : OrderedMap V) : List String :=
  m.entries.map (·.1)

def values (m : OrderedMap V) : List V :=
  m.entries.map (·.2)

def size (m : OrderedMap V) : Nat :=
  m.entries.length

def isEmpty (m : OrderedMap V) : Bool :=
  m.entries.isEmpty

/-- The value of the first entry with a name. -/
def lookupEntry (key : String) : List (String × V) → Option V
  | [] => none
  | (k, v) :: rest => if k = key then some v else lookupEntry key rest

/-- The value under a name. -/
def get? (m : OrderedMap V) (key : String) : Option V :=
  lookupEntry key m.entries

def contains (m : OrderedMap V) (key : String) : Bool :=
  (m.get? key).isSome

/-- Entries with the value under `key` replaced, or with a new entry at the end. -/
def insertEntry (key : String) (value : V) : List (String × V) → List (String × V)
  | [] => [(key, value)]
  | (k, v) :: rest =>
      if k = key then (key, value) :: rest else (k, v) :: insertEntry key value rest

/-- The map with `value` under `key`. -/
def insert (m : OrderedMap V) (key : String) (value : V) : OrderedMap V :=
  ⟨insertEntry key value m.entries⟩

/-- Entries as `insertEntry` leaves them, behind the value that is replaced. -/
def exchangeEntry (key : String) (value : V) : List (String × V) → Option V × List (String × V)
  | [] => (none, [(key, value)])
  | (k, v) :: rest =>
      if k = key then (some v, (key, value) :: rest)
      else
        let (old, rest) := exchangeEntry key value rest
        (old, (k, v) :: rest)

/-- The value that was under `key` before, and the map with `value` there. -/
def exchange (m : OrderedMap V) (key : String) (value : V) : Option V × OrderedMap V :=
  let (old, entries) := exchangeEntry key value m.entries
  (old, ⟨entries⟩)

/-- The entries inserted one after the other: a repeated name keeps its first place and takes its
last value. -/
def ofList (entries : List (String × V)) : OrderedMap V :=
  entries.foldl (fun m (key, value) => m.insert key value) empty

/-- The same names with other values. -/
def map (f : V → W) (m : OrderedMap V) : OrderedMap W :=
  ⟨m.entries.map fun (key, value) => (key, f value)⟩

/-- The entries whose value satisfies `keep`. -/
def filter (keep : V → Bool) (m : OrderedMap V) : OrderedMap V :=
  ⟨m.entries.filter fun (_, value) => keep value⟩

/-- The names in ascending order: two maps have the same names exactly when these lists are
equal. -/
def keySet (m : OrderedMap V) : List String :=
  m.keys.mergeSort (· ≤ ·)

@[simp] theorem keys_empty : (empty : OrderedMap V).keys = [] := rfl

@[simp] theorem get?_empty (key : String) : (empty : OrderedMap V).get? key = none := rfl

theorem map_fst_insertEntry (key : String) (value : V) (entries : List (String × V)) :
    (insertEntry key value entries).map (·.1)
      = if key ∈ entries.map (·.1) then entries.map (·.1) else entries.map (·.1) ++ [key] := by
  induction entries with
  | nil => simp [insertEntry]
  | cons entry rest ih =>
      by_cases h : entry.1 = key
      · simp [insertEntry, h]
      · have hne : ¬ key = entry.1 := fun heq => h heq.symm
        by_cases hmem : key ∈ rest.map (·.1)
        · simp only [insertEntry, h, if_false, List.map_cons, ih, hmem, if_true]
          simp [hmem]
        · simp only [insertEntry, h, if_false, List.map_cons, ih, hmem]
          simp [hmem, hne]

/-- Inserting under a name that is there keeps the names; a new name comes last. -/
theorem keys_insert (m : OrderedMap V) (key : String) (value : V) :
    (m.insert key value).keys = if key ∈ m.keys then m.keys else m.keys ++ [key] :=
  map_fst_insertEntry key value m.entries

theorem lookupEntry_insertEntry (key other : String) (value : V) (entries : List (String × V)) :
    lookupEntry other (insertEntry key value entries)
      = if other = key then some value else lookupEntry other entries := by
  induction entries with
  | nil => simp [insertEntry, lookupEntry, eq_comm]
  | cons entry rest ih =>
      obtain ⟨k, v⟩ := entry
      by_cases h : k = key
      · subst h
        by_cases ho : k = other
        · simp [insertEntry, lookupEntry, ho]
        · have hne : ¬ other = k := fun heq => ho heq.symm
          simp [insertEntry, lookupEntry, ho, hne]
      · by_cases hok : k = other
        · have ho : ¬ other = key := fun heq => h (hok.trans heq)
          simp [insertEntry, lookupEntry, hok, ho]
        · simp [insertEntry, lookupEntry, h, hok, ih]

/-- Looking a name up after an insertion finds the new value under its own name only. -/
theorem get?_insert (m : OrderedMap V) (key other : String) (value : V) :
    (m.insert key value).get? other = if other = key then some value else m.get? other :=
  lookupEntry_insertEntry key other value m.entries

theorem exchangeEntry_eq (key : String) (value : V) (entries : List (String × V)) :
    exchangeEntry key value entries =
      (lookupEntry key entries, insertEntry key value entries) := by
  induction entries with
  | nil => rfl
  | cons entry rest ih =>
      obtain ⟨k, v⟩ := entry
      by_cases h : k = key
      · simp [exchangeEntry, lookupEntry, insertEntry, h]
      · simp [exchangeEntry, lookupEntry, insertEntry, h, ih]

/-- An exchange is an insertion that answers with the value it replaces. -/
theorem exchange_eq (m : OrderedMap V) (key : String) (value : V) :
    m.exchange key value = (m.get? key, m.insert key value) := by
  rw [exchange, exchangeEntry_eq]
  rfl

end OrderedMap

end ServiceGen
