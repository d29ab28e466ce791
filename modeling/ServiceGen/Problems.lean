import ServiceGen.SortedMap

/-!
Problems found in a nested description, kept under the route that leads to the spot.  The view of
a collection is its list of problems with their routes (`flatten`).
-/

namespace ServiceGen

/-- Messages about one spot, and the problems below it under the next part of their route. -/
structure Problems where
  messages : List String
  children : SortedMap String Problems

namespace Problems

def empty : Problems := ⟨[], .empty⟩

instance : Inhabited Problems := ⟨empty⟩

/-- The problems with one more message about the spot itself. -/
def add (p : Problems) (message : String) : Problems :=
  { p with messages := p.messages ++ [message] }

/-- The problems with more messages about the spot itself. -/
def addAll (p : Problems) (messages : List String) : Problems :=
  { p with messages := p.messages ++ messages }

mutual

/-- There is no message, here or below. -/
def isEmpty : Problems → Bool
  | ⟨messages, ⟨children⟩⟩ => messages.isEmpty && allEmpty children

/-- There is no message below any of the routes. -/
def allEmpty : List (String × Problems) → Bool
  | [] => true
  | (_, p) :: rest => p.isEmpty && allEmpty rest

end

mutual

/-- The number of messages, here and below. -/
def count : Problems → Nat
  | ⟨messages, ⟨children⟩⟩ => messages.length + countAll children

/-- The number of messages below the routes. -/
def countAll : List (String × Problems) → Nat
  | [] => 0
  | (_, p) :: rest => p.count + countAll rest

end

mutual

/-- The problems with those of another collection below `route`; they join what is there already.
A collection without problems leaves no trace. -/
def attach (p : Problems) (route : String) : Problems → Problems
  | ⟨messages, ⟨children⟩⟩ =>
      if messages.isEmpty && allEmpty children then p
      else ⟨p.messages, p.children.alter route fun below =>
        attachAll ((below.getD empty).addAll messages) children⟩

/-- The problems with several collections attached, each below its route. -/
def attachAll (p : Problems) : List (String × Problems) → Problems
  | [] => p
  | (route, q) :: rest => attachAll (attach p route q) rest

end

/-- A route continued by one more part; the empty route adds nothing in front. -/
def joinRoute (route part : String) : String :=
  if route.isEmpty then part else route ++ "." ++ part

mutual

/-- The problems with their routes, which all continue `route`. -/
def flattenFrom (route : String) : Problems → List (String × String)
  | ⟨messages, ⟨children⟩⟩ => messages.map (route, ·) ++ flattenAll route children

/-- The problems below several routes. -/
def flattenAll (route : String) : List (String × Problems) → List (String × String)
  | [] => []
  | (part, p) :: rest => flattenFrom (joinRoute route part) p ++ flattenAll route rest

end

/-- Every problem as its route and its message: those of a spot before those below it, and these
in the order of their routes. -/
def flatten (p : Problems) : List (String × String) :=
  flattenFrom "" p

def render (p : Problems) : String :=
  "\n".intercalate (p.flatten.map fun (route, message) =>
    if route.isEmpty then message else route ++ ": " ++ message)

def isOk (p : Problems) : Bool :=
  p.isEmpty

end Problems

end ServiceGen
