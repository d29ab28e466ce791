import ServiceGen.Json.Lexer

/-!
Reading JSON texts.  The parser goes over the tokens once and keeps the containers that are still
open on a stack.  A token that may not come where it comes ends the reading, and what is open then
stays incomplete.
-/

namespace ServiceGen.Json

/-- A container that is still open: what it holds so far, last one first, and for an object the
name that waits for its value.  An object with a name that cannot be read is not complete, and its
later members are not kept. -/
inductive Frame where
  | items (done : List Tree)
  | members (done : List (Name × Tree)) (name : Option Name) (complete : Bool)

/-- What may come next. -/
inductive Expect where
  | value | valueOrClose | name | nameOrClose | colon | separator
  /-- Nothing more is read. -/
  | nothing
deriving DecidableEq

/-- The state of the parser: the open containers, innermost first, what may come next, and the
tree of the text once it is there. -/
structure Parser where
  stack : List Frame
  expect : Expect
  result : Option Tree

/-- How deep containers may be nested. -/
def maxDepth : Nat := 127

/-- The container with one more value. -/
def Frame.add (tree : Tree) : Frame → Frame
  | items done => items (tree :: done)
  | members done (some name) true => members ((name, tree) :: done) none true
  | members done _ complete => members done none complete

/-- The tree of a container that breaks off. -/
def Frame.breakOff : Frame → Tree
  | items done => .arr done.reverse false
  | members done _ _ => .obj done.reverse false

namespace Parser

/-- The state after a complete value. -/
def supply (p : Parser) (tree : Tree) : Parser :=
  match p.stack with
  | [] => ⟨[], .separator, some tree⟩
  | frame :: rest => ⟨frame.add tree :: rest, .separator, none⟩

/-- The state after the beginning of a container. -/
def push (p : Parser) (frame : Frame) (expect : Expect) : Parser :=
  ⟨frame :: p.stack, expect, none⟩

/-- The state in which nothing more is read. -/
def stop (p : Parser) : Parser :=
  { p with expect := .nothing }

/-- The state after the end of an array. -/
def closeArray (p : Parser) : Parser :=
  match p.stack with
  | .items done :: rest => { p with stack := rest }.supply (.arr done.reverse true)
  | _ => p.stop

/-- The state after the end of an object. -/
def closeObject (p : Parser) : Parser :=
  match p.stack with
  | .members done _ complete :: rest =>
      { p with stack := rest }.supply (.obj done.reverse complete)
  | _ => p.stop

/-- The state after a comma. -/
def advance (p : Parser) : Parser :=
  match p.stack with
  | [] => p.stop
  | .items _ :: _ => { p with expect := .value }
  | .members _ _ _ :: _ => { p with expect := .name }

/-- The state after a name in an object. -/
def take (p : Parser) (name : Option Name) : Parser :=
  match p.stack with
  | .members done _ complete :: rest =>
      ⟨.members done name (complete && name.isSome) :: rest, .colon, none⟩
  | _ => p.stop

/-- The state after one more token. -/
def step (p : Parser) (t : Token) : Parser :=
  match p.expect, t with
  | .value, .openBrace | .valueOrClose, .openBrace => p.push (.members [] none true) .nameOrClose
  | .value, .openBracket | .valueOrClose, .openBracket => p.push (.items []) .valueOrClose
  | .value, .scalar v | .valueOrClose, .scalar v => p.supply v
  | .value, .text s _ | .valueOrClose, .text s _ => p.supply ((s.map .str).getD .unreadable)
  | .valueOrClose, .closeBracket => p.closeArray
  | .name, .text s plain | .nameOrClose, .text s plain => p.take (s.map (⟨·, plain⟩))
  | .nameOrClose, .closeBrace => p.closeObject
  | .colon, .colon => { p with expect := .value }
  | .separator, .comma => p.advance
  | .separator, .closeBracket => p.closeArray
  | .separator, .closeBrace => p.closeObject
  | _, _ => p.stop

/-- The text at the end of the tokens: what is still open breaks off, from the inside out. -/
def finish (p : Parser) : Draft :=
  match p.stack, p.result with
  | [], some tree => ⟨tree.limit maxDepth, p.expect = .separator⟩
  | [], none => ⟨.unreadable, false⟩
  | frame :: rest, _ =>
      ⟨(rest.foldl (fun tree f => (f.add tree).breakOff) frame.breakOff).limit maxDepth, false⟩

end Parser

/-- A text as it is written. -/
def draft (text : String) : Draft :=
  ((tokens text.toList).foldl Parser.step ⟨[], .value, none⟩).finish

/-- The value that a text stands for; `none` when it is no JSON, when it nests too deep, or when
one of its numbers is too large. -/
def parse? (text : String) : Option Json :=
  (draft text).value?

end ServiceGen.Json
