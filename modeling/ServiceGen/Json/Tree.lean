import ServiceGen.Json.Basic

/-!
JSON texts as they are written.  A tree also has a place for what no value stands for, such as a
number that is too large, and a text that breaks off leaves a tree that breaks off.  So a reader
can pass over whatever it does not ask for, and its complaint is about the first thing that it
cannot read.  `Tree.value?` is the value of a tree in which everything can be read.
-/

namespace ServiceGen.Json

/-- The name of a member, which is plain when it is written without a backslash. -/
structure Name where
  text : String
  plain : Bool
deriving DecidableEq, Repr

/-- The tree of a text.  Arrays and objects are complete unless something behind the listed parts
cannot be read. -/
inductive Tree where
  | null
  | bool (value : Bool)
  | num (value : Numeral)
  | str (value : String)
  | arr (items : List Tree) (complete : Bool)
  | obj (members : List (Name × Tree)) (complete : Bool)
  /-- No value. -/
  | unreadable

instance : Inhabited Tree := ⟨.unreadable⟩

namespace Tree

mutual

/-- The value of a tree in which everything can be read. -/
def value? : Tree → Option Json
  | null => some .null
  | bool b => some (.bool b)
  | num n => some (.num n)
  | str s => some (.str s)
  | arr items complete => if complete then (itemValues? items).map .arr else none
  | obj members complete => if complete then (memberValues? members).map .obj else none
  | unreadable => none

def itemValues? : List Tree → Option (List Json)
  | [] => some []
  | item :: rest => do
      let v ← value? item
      return v :: (← itemValues? rest)

def memberValues? : List (Name × Tree) → Option (List (String × Json))
  | [] => some []
  | (name, tree) :: rest => do
      let v ← value? tree
      return (name.text, v) :: (← memberValues? rest)

end

mutual

def ofJson : Json → Tree
  | .null => null
  | .bool b => bool b
  | .num n => num n
  | .str s => str s
  | .arr items => arr (ofItems items) true
  | .obj members => obj (ofMembers members) true

def ofItems : List Json → List Tree
  | [] => []
  | item :: rest => ofJson item :: ofItems rest

def ofMembers : List (String × Json) → List (Name × Tree)
  | [] => []
  | (name, value) :: rest => (⟨name, true⟩, ofJson value) :: ofMembers rest

end

mutual

/-- Nothing is lost when a value becomes a tree. -/
theorem value?_ofJson : (v : Json) → (ofJson v).value? = some v
  | .null => rfl
  | .bool _ => rfl
  | .num _ => rfl
  | .str _ => rfl
  | .arr items => by simp [ofJson, value?, itemValues?_ofItems items]
  | .obj members => by simp [ofJson, value?, memberValues?_ofMembers members]

theorem itemValues?_ofItems : (items : List Json) → itemValues? (ofItems items) = some items
  | [] => rfl
  | item :: rest => by
      simp [ofItems, itemValues?, value?_ofJson item, itemValues?_ofItems rest]

theorem memberValues?_ofMembers :
    (members : List (String × Json)) → memberValues? (ofMembers members) = some members
  | [] => rfl
  | (name, value) :: rest => by
      simp [ofMembers, memberValues?, value?_ofJson value, memberValues?_ofMembers rest]

end

mutual

/-- The tree in which no container can be read that lies inside of `depth` others. -/
def limit : (depth : Nat) → Tree → Tree
  | depth + 1, arr items complete => arr (limitItems depth items) complete
  | depth + 1, obj members complete => obj (limitMembers depth members) complete
  | 0, arr _ _ | 0, obj _ _ => unreadable
  | _, null => null
  | _, bool b => bool b
  | _, num n => num n
  | _, str s => str s
  | _, unreadable => unreadable

def limitItems (depth : Nat) : List Tree → List Tree
  | [] => []
  | item :: rest => limit depth item :: limitItems depth rest

def limitMembers (depth : Nat) : List (Name × Tree) → List (Name × Tree)
  | [] => []
  | (name, tree) :: rest => (name, limit depth tree) :: limitMembers depth rest

end

end Tree

/-- A text as it is written: its tree, and whether nothing is wrong behind that. -/
structure Draft where
  tree : Tree
  complete : Bool

namespace Draft

/-- The value of a text in which everything can be read. -/
def value? (d : Draft) : Option Json :=
  if d.complete then d.tree.value? else none

end Draft

end ServiceGen.Json
