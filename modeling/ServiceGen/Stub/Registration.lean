import ServiceGen.Source.Block
import ServiceGen.Stub.Module
import ServiceGen.Text.Basic

/-!
The file in which the servicers of a server are registered.  Several projects share it, each with a
block of its own between two marks.  `projectBlocks` reads the blocks back, and `registration`
writes them again with one of them replaced or added.
-/

namespace ServiceGen

/-- The block of one project: its name and its lines. -/
structure ProjectBlock where
  name : String
  body : String
deriving DecidableEq, Repr

namespace Registration

/-- What begins a block; the name follows on the same line. -/
def opening : String := "# project: "

/-- What ends a block. -/
def closing : String := "# end project"

/-- A block that was found in a text: its name and body as they stand there, and its length. -/
structure Found where
  name : List Char
  body : List Char
  length : Nat

/-- The last place where `mark` begins. -/
def lastPlace? (mark : List Char) : List Char → Option Nat
  | [] => none
  | c :: cs =>
      match lastPlace? mark cs with
      | some place => some (place + 1)
      | none => if (Text.strip? mark (c :: cs)).isSome then some 0 else none

/-- The block whose name begins a text.  The name goes to the end of its line and the body to the
next closing mark, at least one character each.  When no mark follows the line, the last mark
inside of it ends the block, and the one character before that mark is the body. -/
def foundAfterOpening? (rest : List Char) : Option Found :=
  let line := rest.takeWhile (· != '\n')
  let after := rest.drop line.length
  if line.isEmpty then none
  else
    match Text.cut? closing.toList (after.drop 1) with
    | some (body, _) =>
        some ⟨line, after.take 1 ++ body, line.length + 1 + body.length + closing.length⟩
    | none =>
        match lastPlace? closing.toList line with
        | some (place + 2) =>
            some ⟨line.take (place + 1), (line.drop (place + 1)).take 1,
              place + 2 + closing.length⟩
        | _ => none

def found? (cs : List Char) : Option Found := do
  let f ← foundAfterOpening? (← Text.strip? opening.toList cs)
  return { f with length := opening.length + f.length }

/-- The blocks of a text after `skip` characters of it. -/
def blocksFrom : (skip : Nat) → List Char → List Found
  | _, [] => []
  | skip + 1, _ :: cs => blocksFrom skip cs
  | 0, c :: cs =>
      match found? (c :: cs) with
      | some f => f :: blocksFrom (f.length - 1) cs
      | none => blocksFrom 0 cs

def projectBlocks (text : String) : List ProjectBlock :=
  (blocksFrom 0 text.toList).map fun f =>
    ⟨Text.trim (.ofList f.name), Text.trim (.ofList f.body)⟩

/-- What stands in front of the blocks. -/
def header : String :=
  "# coding: utf8\n# DONT TOUCH THIS FILE!\n\nfrom .runtime.runtime import reg_servicer\n"

def blockText (b : ProjectBlock) : String :=
  "\n" ++ opening ++ b.name ++ "\n\n" ++ Text.trim b.body ++ "\n\n" ++ closing ++ "\n"

/-- The blocks with the bodies of all that have a name replaced, or with a block added at the
end. -/
def update (blocks : List ProjectBlock) (name body : String) : List ProjectBlock :=
  if blocks.any (·.name == name) then
    blocks.map fun b => if b.name == name then { b with body } else b
  else blocks ++ [⟨name, body⟩]

/-- The registration file with the block of a project replaced or added. -/
def registration (existing name body : String) : String :=
  header ++ "".intercalate ((update (projectBlocks existing) name body).map blockText)

/-- The lines that import the servicers of a project and register them. -/
def bodyBlocks (services : List Service) : List Block :=
  (services.map fun s => .line
      ("from ." ++ s.stem ++ " import " ++ s.className ++ "Servicer, pb2_grpc as " ++ s.stem
        ++ "_pb2_grpc"))
    ++ [.blank]
    ++ services.map fun s => .line
      ("reg_servicer(" ++ s.className ++ "Servicer, " ++ s.stem ++ "_pb2_grpc.add_" ++ s.className
        ++ "Servicer_to_server)")

/-- The text that registers the services of a project. -/
def projectBody (services : List Service) : String :=
  Block.render (bodyBlocks services)

end Registration

/-- The file that starts a server.  A detached server first makes its packages known. -/
def launcher (packages : Option (List String)) : String :=
  Block.render
    ([.line "# coding: utf8", .blank]
      ++ (match packages with
        | some dirs =>
            [Block.line "import sys"]
              ++ dirs.map (fun dir => Block.line ("sys.path.append('./" ++ dir ++ "')"))
              ++ [.blank, .blank]
        | none => [])
      ++ [.line "from rpc.runtime.runtime import server", .blank, .blank]
      ++ Block.colon "if __name__ == '__main__'" [.line "server.loop()"])

end ServiceGen
