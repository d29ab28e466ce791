/-!
Maps that keep their entries in ascending order of the keys.  Like an `OrderedMap` it is a list of
entries, and inserting under a key that is there replaces its value.
-/

namespace ServiceGen

universe u v w

/-- Entries in ascending order of their keys. -/
structure SortedMap (K : Type u) (V : Type v) where
  entries : List (K × V)
deriving Repr, BEq, DecidableEq

namespace SortedMap

variable {K : Type u} {V : Type v} {W : Type w}

def empty : SortedMap K V := ⟨[]⟩

instance : Inhabited (SortedMap K V) := ⟨empty⟩

def keys (m : SortedMap K V) : List K :=
  m.entries.map (·.1)

def values (m : SortedMap K V) : List V :=
  m.entries.map (·.2)

def isEmpty (m : SortedMap K V) : Bool :=
  m.entries.isEmpty

/-- The same keys with other values. -/
def map (f : V → W) (m : SortedMap K V) : SortedMap K W :=
  ⟨m.entries.map fun (key, value) => (key, f value)⟩

variable [Ord K]

/-- The entries with `f` applied to the value under `key`, which is `none` when it is new. -/
def alterEntry (key : K) (f : Option V → V) : List (K × V) → List (K × V)
  | [] => [(key, f none)]
  | (k, v) :: rest =>
      match compare key k with
      | .lt => (key, f none) :: (k, v) :: rest
      | .eq => (k, f (some v)) :: rest
      | .gt => (k, v) :: alterEntry key f rest

/-- The map with `f` applied to the value under `key`, which is `none` when it is new. -/
def alter (m : SortedMap K V) (key : K) (f : Option V → V) : SortedMap K V :=
  ⟨alterEntry key f m.entries⟩

/-- The map with `value` under `key`. -/
def insert (m : SortedMap K V) (key : K) (value : V) : SortedMap K V :=
  m.alter key fun _ => value

/-- The value under a key. -/
def get? (m : SortedMap K V) (key : K) : Option V :=
  (m.entries.find? fun (k, _) => compare key k == .eq).map (·.2)

def contains (m : SortedMap K V) (key : K) : Bool :=
  (m.get? key).isSome

/-- The entries inserted one after the other: the last value of a repeated key stays. -/
def ofList (entries : List (K × V)) : SortedMap K V :=
  entries.foldl (fun m (key, value) => m.insert key value) empty

end SortedMap

end ServiceGen
