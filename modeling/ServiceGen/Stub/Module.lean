import ServiceGen.Files.Path
import ServiceGen.Message.DataClass

/-!
The modules of generated code for one service: its data classes, the servicer that answers calls,
and the client that makes them.
-/

namespace ServiceGen

structure StubOptions where
  /-- The project that generated classes say they are from. -/
  fromProject : String
  /-- The module of the runtime package. -/
  runtimePath : String
  /-- The module that holds the web interface and the tables. -/
  apiPath : String
deriving DecidableEq, Repr

namespace StubOptions

/-- The settings of a generation that is not told otherwise. -/
def standard : StubOptions :=
  { fromProject := "", runtimePath := "runtime", apiPath := "src" }

end StubOptions

/-- A generated file, at a path below the directory of the output. -/
structure GeneratedFile where
  path : Path
  contents : String
deriving DecidableEq, Repr

/-- The two ends of a call. -/
inductive Side where
  | server | client
deriving DecidableEq, Repr

/-- Where the runtime package is, as seen from the data classes. -/
def Side.runtimeDots : Side → String
  | server => ".."
  | client => "..."

namespace Service

/-- The name that the files of a service have in common. -/
def stem (s : Service) : String :=
  Naming.fileStem s.name

def className (s : Service) : String :=
  Naming.pretty s.name

def containerClass (s : Service) (o : Operation) (c : Container) : String :=
  (TypePath.top s.name o.name c).className

def dataModule (side : Side) (s : Service) : List Block :=
  [.line "# coding: utf-8", .blank, .line "import typing",
    .line ("from ..encode import " ++ s.stem ++ "_pb2 as pb2"),
    .line ("from " ++ side.runtimeDots ++ "runtime.runtime.common import RPCDict"),
    .blank, .blank]
  ++ DataClass.serviceBlocks .wire s

/-- The module with the data classes for web resources. -/
def definitionsModule (options : StubOptions) (s : Service) : List Block :=
  [.line "import typing",
    .line ("from " ++ options.runtimePath ++ ".runtime.common import RPCDict"),
    .blank, .blank]
  ++ DataClass.serviceBlocks .definitions s

/-- The statements in which a servicer has a call answered. -/
def answerBlocks (s : Service) (o : Operation) : List Block :=
  match s.implementation with
  | some implementation =>
      [.line ("impl = " ++ implementation.name ++ "(ctx)"),
        .line ("result = impl." ++ o.name ++ "(arg)"),
        .line "return result.convert_pb2()"]
  | none =>
      [.line ("# implement the call here; it must return " ++ s.containerClass o .result),
        .line "raise NotImplementedError()"]

def servicerMethod (s : Service) (o : Operation) : List Block :=
  .blank :: Block.colon ("def " ++ o.name ++ "(self, request, context)")
    ([.line ("arg = " ++ s.containerClass o .argument ++ "()"),
        .line "arg.from_pb2(request)",
        .line ("ctx = Context(TraceInfo(\"" ++ s.className ++ "." ++ o.name
          ++ "\"), impl_context=context)")]
      ++ Block.colon "with TraceContext(ctx)" (s.answerBlocks o))

/-- What generated classes say about themselves. -/
def identityBlocks (options : StubOptions) (s : Service) : List Block :=
  [.line ("from_project = \"" ++ options.fromProject ++ "\""),
    .line ("rpc_name = \"" ++ s.className ++ "\"")]

def servicerModule (options : StubOptions) (s : Service) : List Block :=
  [.line "# coding: utf-8", .blank, .line "import typing",
    .line ("from .encode import " ++ s.stem ++ "_pb2_grpc as pb2_grpc"),
    .line ("from .impl." ++ s.stem ++ " import *"),
    .line "from .runtime.runtime import Context, TraceInfo, reg_servicer",
    .line "from .runtime.runtime.concurrency.local_trace import TraceContext"]
  ++ (s.implementation.map fun c => .line ("from " ++ c.module ++ " import " ++ c.name)).toList
  ++ [.blank, .blank]
  ++ Block.colon
    ("class " ++ s.className ++ "Servicer(pb2_grpc." ++ s.className ++ "Servicer)")
    (s.identityBlocks options ++ s.operations.flatMap s.servicerMethod)

def clientMethod (s : Service) (o : Operation) : List Block :=
  let result := s.containerClass o .result
  .blank :: Block.colon
    ("def " ++ o.name ++ "(self, arg: " ++ s.containerClass o .argument
      ++ ", option: typing.Union[RPCOption, None] = None) -> " ++ result)
    (.line ("context = self.get_context(\"" ++ o.name ++ "\")")
      :: Block.colon "with TraceContext(context)"
        [.line "return_result = context.call(arg, option=option)",
          .line ("result = " ++ result ++ "()"),
          .line "result.from_pb2(return_result)",
          .line "return result"])

def clientModule (options : StubOptions) (s : Service) : List Block :=
  [.line "# coding: utf-8", .blank, .line "import typing",
    .line ("from .src.encode." ++ s.stem ++ "_pb2_grpc import " ++ s.className ++ "Stub"),
    .line ("from .src.impl." ++ s.stem ++ " import *"),
    .line "from .runtime.runtime import ServiceClient, reg_client, RPCOption",
    .line "from .runtime.runtime.concurrency.local_trace import TraceContext",
    .blank, .blank]
  ++ Block.colon ("class " ++ s.className ++ "(ServiceClient)")
    (s.identityBlocks options ++ s.operations.flatMap s.clientMethod)
  ++ [.blank, .blank,
    .line ("reg_client(" ++ s.className ++ ".rpc_name, " ++ s.className ++ "Stub)")]

end Service

end ServiceGen
