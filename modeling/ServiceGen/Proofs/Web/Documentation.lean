import ServiceGen.Proofs.Declaration.Assembly
import ServiceGen.Proofs.Fallible
import ServiceGen.Proofs.OrderedMap
import ServiceGen.Proofs.Source.Literal
import ServiceGen.Proofs.Source.Sections
import ServiceGen.Proofs.Text.Search
import ServiceGen.Web.Resource

/-!
What a resource module documents of the arguments of an operation.  An argument is looked for in
three places: among the keys of the operation's model, in the headers of its method, and among the
parameters of the resource class.  The main statement, `WebResource.documented_once_iff`, counts its
name there.
-/

namespace ServiceGen

open Counted

namespace Service

/-- The arguments that the parameters of the namespace become. -/
def mountedArguments (s : Service) : List Argument :=
  s.mountedAt.params.entries.map fun (name, type) =>
    { Argument.ofType name type with source := .path }

theorem names_mountedArguments (s : Service) :
    s.mountedArguments.map (·.name) = s.mountedAt.params.keys := by
  rw [mountedArguments, List.map_map]
  rfl

theorem params_mountedAt (s : Service) :
    s.mountedAt.params.entries = (s.webNamespace.map (·.params.entries)).getD [] := by
  rw [mountedAt]
  cases s.webNamespace <;> dsimp only [Option.getD] <;> split <;> rfl

/-- The arguments that a class shares among its operations end with those of its namespace. -/
theorem sharedArguments_gives {c : ClassDeclaration} {shared : List Argument} {e : Degradations}
    (h : c.sharedArguments.Gives shared e) :
    ∃ documented, shared = documented ++
      ((c.webNamespace.map (·.params.entries)).getD []).map fun (name, type) =>
        { Argument.ofType name type with source := .path } := by
  rw [ClassDeclaration.sharedArguments] at h
  have hsteady : ∀ entry : String × Attributes,
      (ClassDeclaration.documentedArgument entry.1 entry.2).Steady := fun entry =>
    (steady_record _).bind fun t => steady_pure _
  obtain ⟨documented, _, _, _, hpure, -⟩ :=
    (gives_bind_iff (steady_mapM hsteady _) fun _ => steady_pure _).mp h
  obtain ⟨rfl, -⟩ := gives_pure_iff.mp hpure
  exact ⟨documented, rfl⟩

/-- An operation takes the arguments that its class shares, and others of its own. -/
theorem operation_shares {m : Method} {shared : List Argument} {o : Operation} {e : Degradations}
    (h : (m.operation shared).Gives o e) : ∃ own, o.arguments.Perm (shared ++ own) := by
  cases hdoc : m.member.memberDoc with
  | some doc =>
      obtain ⟨own, -, -, -, harguments, -⟩ := Method.documented_operation_gives hdoc h
      exact ⟨own, .of_eq harguments⟩
  | none =>
      rw [Method.operation, hdoc] at h
      obtain ⟨rfl, -⟩ := h.unique (gives_pure _)
      exact ⟨_, sortByName_perm Argument.name _⟩

/-- Every operation of a service that is put together takes the parameters of the namespace, among
its other arguments. -/
theorem mounted_of_assemble {needImplementation : Bool}
    {classes implementations : List ClassDeclaration} {d d' : Degradations}
    {services : List Service}
    (h : assemble needImplementation classes implementations d = .ok (services, d'))
    {s : Service} (hs : s ∈ services) {o : Operation} (ho : o ∈ s.operations) :
    ∃ others, o.arguments.Perm (s.mountedArguments ++ others) := by
  obtain ⟨e, hgives, -⟩ := (steady_assemble needImplementation classes
    implementations).eq_ok_iff.mp h
  obtain ⟨rs, hrs, rfl, -⟩ := assemble_gives_iff.mp hgives
  obtain ⟨c, -, operations, e₁, hoperations, -, rfl⟩ :=
    exists_left_of_forall₂ (forall₂_withOperations hrs) ((sortByName_perm Service.name _).subset hs)
  obtain ⟨shared, e₀, declared, hshared, hdeclared, rfl, -⟩ :=
    ClassDeclaration.operations_gives_iff.mp hoperations
  obtain ⟨r, hr, rfl⟩ := List.mem_map.mp ((sortByName_perm Operation.name _).subset ho)
  obtain ⟨m, -, hm⟩ := exists_left_of_forall₂ hdeclared hr
  obtain ⟨own, hown⟩ := operation_shares hm
  obtain ⟨documented, rfl⟩ := sharedArguments_gives hshared
  refine ⟨documented ++ own, hown.trans ?_⟩
  rw [mountedArguments, params_mountedAt, ← List.append_assoc]
  exact List.perm_append_comm.append_right own

end Service

namespace WebResource

section Reading

/-- The names that stand as literals at the beginning of sections. -/
def literalNames (blocks : List Block) : List String :=
  (Block.sections blocks).filterMap fun (header, _) => Literal.read? header

/-- The keys of the model for the arguments of an operation: its entries stand two levels below. -/
def modelKeys (model : List Block) : List String :=
  (Block.sections model).flatMap fun (_, body) =>
    (Block.sections body).flatMap fun (_, entries) => literalNames entries

def firstLiteral? : List Block → Option String
  | .line text :: _ => Literal.read? text
  | _ => none

def headerNames (method : List Block) : List String :=
  (Block.sections method).filterMap fun (header, body) =>
    if header = "@api.header(" then firstLiteral? body else none

/-- The name of the parameter that a line before a resource class documents. -/
def paramName? : Block → Option String
  | .line text => (Text.stripStart? "@ns.param(" text).bind Literal.read?
  | _ => none

/-- The names that are documented for an operation, as often as they are. -/
def documentedNames (model method resource : List Block) : List String :=
  modelKeys model ++ headerNames method ++ resource.filterMap paramName?

end Reading

section Model

theorem literalNames_around (name ending : String) (body : List Block) (closing : String) :
    literalNames (Block.around (Literal.quote name ++ ending) body closing) = [name] := by
  simp [literalNames, Literal.read?_quote]

/-- Entries that begin with their names have these. -/
theorem literalNames_flatMap {V : Type} {entries : List (String × V)}
    {f : String × V → List Block}
    (hdeeper : ∀ entry ∈ entries, Block.beginsDeeper (f entry) = false)
    (hnames : ∀ entry ∈ entries, literalNames (f entry) = [entry.1]) :
    literalNames (entries.flatMap f) = entries.map (·.1) := by
  rw [literalNames, Block.sections_flatMap hdeeper]
  induction entries with
  | nil => rfl
  | cons entry rest ih =>
      rw [List.forall_mem_cons] at hdeeper hnames
      rw [List.flatMap_cons, List.filterMap_append, ih hdeeper.2 hnames.2, List.map_cons]
      exact congrArg (· ++ _) hnames.1

def fieldEntry (model : String) (field : String × DataType) : List Block :=
  if field.2.isVoid || field.2.source = .header then []
  else
    Block.around (Literal.quote field.1 ++ ": " ++ field.2.webFieldClass ++ "(")
      (WebModel.partBlocks (WebModel.nestedName model field.1) field.2 ++ field.2.noteLines) "),"

theorem fieldBlocks_eq (model : String) (fields : List (String × DataType)) :
    WebModel.fieldBlocks model fields = fields.flatMap (fieldEntry model) := by
  induction fields with
  | nil => rw [WebModel.fieldBlocks]; rfl
  | cons field rest ih => rw [WebModel.fieldBlocks, ih, List.flatMap_cons]; rfl

theorem literalNames_fieldBlocks (model : String) {fields : List (String × DataType)}
    (hfields : ∀ field ∈ fields, field.2.isVoid = false ∧ field.2.source ≠ .header) :
    literalNames (WebModel.fieldBlocks model fields) = fields.map (·.1) := by
  have hentry : ∀ field ∈ fields, fieldEntry model field =
      Block.around (Literal.quote field.1 ++ (": " ++ field.2.webFieldClass ++ "("))
        (WebModel.partBlocks (WebModel.nestedName model field.1) field.2 ++ field.2.noteLines)
        ")," := by
    intro field hfield
    obtain ⟨hvoid, hheader⟩ := hfields field hfield
    simp [fieldEntry, hvoid, hheader, String.append_assoc]
  rw [fieldBlocks_eq]
  refine literalNames_flatMap (fun field hfield => ?_) fun field hfield => ?_
  · rw [hentry field hfield]
    rfl
  · rw [hentry field hfield, literalNames_around]

theorem literalNames_queryArguments (fields : List (String × DataType)) :
    literalNames (fields.flatMap fun (name, t) => queryArgument name t) = fields.map (·.1) :=
  literalNames_flatMap (fun _ _ => rfl) fun _ _ => literalNames_around ..

/-- The argument is documented in the model of its operation. -/
def inModel (a : Argument) : Bool :=
  a.source != .path && a.source != .header && !a.type.isVoid

theorem documentedArguments_eq (o : Operation) :
    o.documentedArguments = .ofList ((o.arguments.filter inModel).map fun a => (a.name, a.field)) :=
  rfl

theorem mem_documentedArguments {o : Operation} {field : String × DataType}
    (hfield : field ∈ o.documentedArguments.entries) :
    field.2.isVoid = false ∧ field.2.source ≠ .header := by
  rw [documentedArguments_eq] at hfield
  obtain ⟨a, ha, rfl⟩ := List.mem_map.mp (OrderedMap.mem_of_mem_ofList hfield)
  have hin := (List.mem_filter.mp ha).2
  simp only [inModel, Bool.and_eq_true, bne_iff_ne, ne_eq, Bool.not_eq_true'] at hin
  exact ⟨hin.2, hin.1.2⟩

/-- The keys of a model whose body has one section of entries. -/
theorem modelKeys_around {opening first closing header : String} {body entries : List Block}
    (hdeeper : Block.beginsDeeper body = false)
    (hbody : Block.sections body = [(header, entries)]) :
    modelKeys (Block.around opening (.line first :: body) closing) = literalNames entries := by
  simp [modelKeys, Block.sections_line first hdeeper, hbody]

/-- The keys of the model of an operation are those of the arguments that are documented there. -/
theorem modelKeys_argumentModel {s : Service} {o : Operation} {model : List Block}
    (h : argumentModel s o = .ok model) : modelKeys model = o.documentedArguments.keys := by
  rw [argumentModel] at h
  split at h
  · split at h
    · cases h
    · injection h with h
      rw [← h, modelKeys_around rfl (Block.sections_around ..), literalNames_queryArguments]
      rfl
  · injection h with h
    have hclosing : Block.sections [.line "\x7d)]"] = [] := Block.sections_line _ rfl
    rw [← h, modelKeys_around rfl (by rw [WebModel.opening, Block.sections_section, hclosing]),
      literalNames_fieldBlocks _ fun field => mem_documentedArguments]
    rfl

end Model

section Method

theorem headerNames_append {before after : List Block}
    (hafter : Block.beginsDeeper after = false) :
    headerNames (before ++ after) = headerNames before ++ headerNames after := by
  rw [headerNames, Block.sections_append hafter, List.filterMap_append]
  rfl

theorem headerNames_headerBlocks (a : Argument) : headerNames (headerBlocks a) = [a.name] := by
  simp [headerNames, headerBlocks, firstLiteral?, Literal.read?_quote]

theorem headerNames_flatMap (headers : List Argument) :
    headerNames (headers.flatMap headerBlocks) = headers.map (·.name) := by
  induction headers with
  | nil => rfl
  | cons a rest ih =>
      rw [List.flatMap_cons, headerNames_append (Block.beginsDeeper_flatMap fun _ _ => rfl),
        headerNames_headerBlocks, ih]
      rfl

/-- A definition is no header. -/
theorem headerNames_definition (rest : String) (body : List Block) :
    headerNames (Block.colon ("def " ++ rest) body) = [] := by
  have hne : "def " ++ rest ++ ":" ≠ "@api.header(" := by
    intro heq
    have hhead := congrArg (·.toList.head?) heq
    simp at hhead
  simp [headerNames, hne]

/-- The headers of a method are those of the arguments that are read from headers. -/
theorem headerNames_method (s : Service) (o : Operation) :
    headerNames (method s o) = (o.arguments.filter (·.source = .header)).map (·.name) := by
  have hdecorators : headerNames [.line ("@" ++ s.modelName o "arg"),
      .line ("@" ++ s.modelName o "result")] = [] := by
    rw [headerNames, Block.sections_line _ rfl, Block.sections_line _ rfl]
    rfl
  have hdefinition : ∀ name result, "def " ++ name ++ "(self, *args, **kwargs) -> " ++ result =
      "def " ++ (name ++ ("(self, *args, **kwargs) -> " ++ result)) := by
    intro name result
    simp only [String.append_assoc]
  rw [method, headerNames_append rfl,
    headerNames_append (Block.beginsDeeper_flatMap fun _ _ => rfl), hdecorators, hdefinition,
    headerNames_definition, headerNames_flatMap, List.nil_append, List.append_nil]

end Method

section Resource

theorem paramName?_route (rest : String) : paramName? (.line ("@ns.route(" ++ rest)) = none := by
  simp [paramName?, Text.stripStart?, Text.strip?]

theorem paramName?_param (name rest : String) :
    paramName? (.line ("@ns.param(" ++ (Literal.quote name ++ rest))) = some name := by
  rw [paramName?, Text.stripStart?, String.toList_append, Text.strip?_append, Option.map_some,
    Option.bind_some, String.ofList_toList, Literal.read?_quote]

theorem paramNames_class (rest : String) (body : List Block) :
    (Block.colon ("class " ++ rest) body).filterMap paramName? = [] := by
  simp [Block.colon, paramName?, Text.stripStart?, Text.strip?]

theorem paramNames_params (params : List (String × DataType)) :
    (params.map fun (name, t) => Block.line ("@ns.param(" ++ Literal.quote name ++ ", " ++
      Literal.quote t.description ++ ")")).filterMap paramName? = params.map (·.1) := by
  induction params with
  | nil => rfl
  | cons param rest ih =>
      simp only [List.map_cons, String.append_assoc] at ih ⊢
      rw [List.filterMap_cons_some (paramName?_param param.1 _), ih]

/-- The parameters of a resource class are those of the namespace. -/
theorem paramNames_resourceClass (s : Service) :
    (resourceClass s).filterMap paramName? = s.mountedAt.params.keys := by
  have hroutes : ∀ urls : List String,
      (urls.map fun url => Block.line ("@ns.route(" ++ Literal.quote url ++ ")")).filterMap
        paramName? = [] := by
    intro urls
    rw [List.filterMap_map, List.filterMap_eq_nil_iff]
    intro url _
    rw [Function.comp_apply, String.append_assoc, paramName?_route]
  rw [resourceClass, List.filterMap_append, List.filterMap_append, hroutes, paramNames_params,
    String.append_assoc, paramNames_class, List.append_nil]
  rfl

end Resource

section Place

/-- Where the documentation of an operation stands in the module of its service: its model, its
method in the resource class, and what is said before that class. -/
structure Documents (s : Service) (o : Operation) (blocks model : List Block) : Prop where
  made : argumentModel s o = .ok model
  inModule : model <:+: blocks
  resource : resourceClass s <:+ blocks
  method : ∃ body, .nest body ∈ resourceClass s ∧ method s o <:+: body

/-- The models of an operation, with the empty lines before them. -/
def operationModels (s : Service) (o : Operation) : Except Failure (List Block) := do
  return Block.blank :: (← argumentModel s o) ++ [.blank] ++ resultModel s o

/-- The models of a module have one for each operation. -/
theorem exists_model {s : Service} {blocks : List Block} (h : models s = .ok blocks)
    {o : Operation} (ho : o ∈ s.operations) :
    ∃ model, argumentModel s o = .ok model ∧ model <:+: blocks := by
  have hmodels : models s =
      s.operations.mapM (operationModels s) >>= fun parts => pure parts.flatten := rfl
  rw [hmodels, Fallible.bind_eq_ok_iff] at h
  obtain ⟨parts, hparts, hblocks⟩ := h
  obtain rfl := Except.ok.inj hblocks
  obtain ⟨part, hpart, hmade⟩ := exists_right_of_forall₂ (Fallible.mapM_eq_ok_iff.mp hparts) ho
  rw [operationModels, Fallible.bind_eq_ok_iff] at hmade
  obtain ⟨model, hmodel, hmade⟩ := hmade
  obtain rfl := Except.ok.inj hmade
  refine ⟨model, hmodel, List.IsInfix.trans ?_ (List.infix_of_mem_flatten hpart)⟩
  exact ⟨[.blank], [.blank] ++ resultModel s o, by simp⟩

/-- Every operation is documented in the module of its service. -/
theorem exists_documents {options : StubOptions} {s : Service} {blocks : List Block}
    (h : module options s = .ok blocks) {o : Operation} (ho : o ∈ s.operations) :
    ∃ model, Documents s o blocks model := by
  rw [module, Fallible.bind_eq_ok_iff] at h
  obtain ⟨found, hmodels, hblocks⟩ := h
  obtain rfl := Except.ok.inj hblocks
  obtain ⟨model, hmade, hmodel⟩ := exists_model hmodels ho
  refine ⟨model, hmade, hmodel.trans ?_, List.suffix_append .., ?_⟩
  · rw [List.append_assoc, List.append_assoc]
    exact List.infix_append' ..
  · refine ⟨s.operations.flatMap fun o => .blank :: method s o, ?_, ?_⟩
    · exact List.mem_append_right _ (List.mem_cons_of_mem _ List.mem_cons_self)
    · have hmem := List.mem_map_of_mem (f := fun o => Block.blank :: method s o) ho
      exact (List.suffix_cons ..).isInfix.trans (List.infix_of_mem_flatten hmem)

end Place

section Count

variable {s : Service} {o : Operation}

/-- The name of an argument is documented once for the model, if any argument of that name is there,
once for each header of that name, and once for each such parameter of the namespace. -/
theorem count_documentedNames {blocks model : List Block} (h : Documents s o blocks model)
    (name : String) :
    (documentedNames model (method s o) (resourceClass s)).count name =
      (if name ∈ (o.arguments.filter inModel).map (·.name) then 1 else 0)
        + ((o.arguments.filter (·.source = .header)).map (·.name)).count name
        + s.mountedAt.params.keys.count name := by
  have hkeys : o.documentedArguments.keys.count name =
      if name ∈ (o.arguments.filter inModel).map (·.name) then 1 else 0 := by
    rw [documentedArguments_eq, (OrderedMap.nodup_keys_ofList _).count]
    simp only [OrderedMap.mem_keys_ofList, List.map_map]
    rfl
  rw [documentedNames, List.count_append, List.count_append, modelKeys_argumentModel h.made,
    headerNames_method, paramNames_resourceClass, hkeys]

/-- Of arguments with names of their own, those with some property have the name of one of them
once, if it has the property as well. -/
theorem count_filter_names {arguments : List Argument} (hnames : (arguments.map (·.name)).Nodup)
    (keep : Argument → Bool) {a : Argument} (ha : a ∈ arguments) :
    ((arguments.filter keep).map (·.name)).count a.name = if keep a then 1 else 0 := by
  have hmem : a.name ∈ (arguments.filter keep).map (·.name) ↔ keep a = true := by
    constructor
    · intro h
      obtain ⟨b, hb, hname⟩ := List.mem_map.mp h
      obtain ⟨hb, hkeep⟩ := List.mem_filter.mp hb
      rwa [List.inj_on_of_nodup_map hnames hb ha hname] at hkeep
    · exact fun h => List.mem_map_of_mem (List.mem_filter.mpr ⟨ha, h⟩)
  rw [(hnames.sublist (List.filter_sublist.map _)).count]
  simp only [hmem]

/-- Of arguments with names of their own, those of the namespace are read from the path, and their
names occur once. -/
theorem count_params {others : List Argument} (hnames : (o.arguments.map (·.name)).Nodup)
    (hshares : o.arguments.Perm (s.mountedArguments ++ others)) {a : Argument}
    (ha : a ∈ o.arguments) :
    s.mountedAt.params.keys.count a.name = (if a.name ∈ s.mountedAt.params.keys then 1 else 0) ∧
      (a.name ∈ s.mountedAt.params.keys → a.source = .path) := by
  have hkeys : s.mountedAt.params.keys.Nodup := by
    have hall := ((hshares.map (·.name)).nodup_iff).mp hnames
    rw [List.map_append, s.names_mountedArguments] at hall
    exact (List.nodup_append.mp hall).1
  refine ⟨hkeys.count, fun hmem => ?_⟩
  rw [← s.names_mountedArguments] at hmem
  obtain ⟨b, hb, hname⟩ := List.mem_map.mp hmem
  have hsame := List.inj_on_of_nodup_map hnames
    (hshares.symm.subset (List.mem_append_left _ hb)) ha hname
  obtain ⟨param, -, rfl⟩ := List.mem_map.mp hb
  rw [← hsame]

/-- The module of a service that is put together from classes has a model and a method for each
operation, and the parameters of the namespace before its resource class.  The name of an argument
is documented there as often as there are headers and parameters of that name, and once more for the
model.  If the arguments of the operation have names of their own, each one that is not void is
documented once exactly when it is not read from the path, or is a parameter of the namespace. -/
theorem documented_once_iff {needImplementation : Bool}
    {classes implementations : List ClassDeclaration} {d d' : Degradations}
    {services : List Service}
    (hservices : Service.assemble needImplementation classes implementations d =
      .ok (services, d')) (hs : s ∈ services) {options : StubOptions} {blocks : List Block}
    (hmodule : module options s = .ok blocks) (ho : o ∈ s.operations) :
    ∃ model, Documents s o blocks model ∧ ∀ a ∈ o.arguments, a.type.isVoid = false →
      (documentedNames model (method s o) (resourceClass s)).count a.name =
          (if a.name ∈ (o.arguments.filter inModel).map (·.name) then 1 else 0)
            + ((o.arguments.filter (·.source = .header)).map (·.name)).count a.name
            + s.mountedAt.params.keys.count a.name ∧
        ((o.arguments.map (·.name)).Nodup →
          ((documentedNames model (method s o) (resourceClass s)).count a.name = 1 ↔
            (a.source = .path → a.name ∈ s.mountedAt.params.keys))) := by
  obtain ⟨others, hshares⟩ := Service.mounted_of_assemble hservices hs ho
  obtain ⟨model, hdocuments⟩ := exists_documents hmodule ho
  refine ⟨model, hdocuments, fun a ha hvoid => ⟨count_documentedNames hdocuments a.name, ?_⟩⟩
  intro hnames
  obtain ⟨hcount, hpath⟩ := count_params hnames hshares ha
  have hmodel := count_filter_names hnames inModel ha
  rw [(hnames.sublist (List.filter_sublist.map _)).count] at hmodel
  rw [count_documentedNames hdocuments, hmodel, count_filter_names hnames _ ha, hcount]
  -- each source has its own place, and only the path may have none
  by_cases hmem : a.name ∈ s.mountedAt.params.keys
  · simp [inModel, hpath hmem, hmem]
  · cases hsource : a.source <;> simp [inModel, hsource, hvoid, hmem]

end Count

end WebResource

namespace DocumentationWitness

open WebResource

def number : Attributes :=
  ⟨[("type", .str "int")]⟩

/-- A class with one method, which takes `limit`; `id` is a parameter of its namespace or of its
documentation. -/
def shop (webNamespace : Option WebNamespace) (classParams : List (String × Attributes)) :
    ClassDeclaration where
  name := "Shop"
  module := "app.shop"
  capability := .serviceBase
  implementationName := none
  classDoc := some ⟨⟨classParams⟩⟩
  webNamespace
  members := ⟨[("find",
    { kind := .function, doc := none, plainArguments := none, plainResult := none
      memberDoc := some ⟨⟨[("limit", .attributes number)]⟩, [], .empty⟩
      signature := .empty })]⟩

def mounted : ClassDeclaration :=
  shop (some { WebNamespace.unnamed with params := ⟨[("id", .scalar .int)]⟩ })
    [("token", ⟨[("in", .str "header")]⟩)]

def unmounted : ClassDeclaration :=
  shop none [("id", number)]

def options : StubOptions :=
  { fromProject := "", runtimePath := "runtime", apiPath := "api" }

def servicesOf (c : ClassDeclaration) : List Service :=
  ((Service.assemble false [c] [] .none).toOption.map (·.1)).getD []

/-- A class alone has a service whose module can be made, with an operation of this kind. -/
def hasOperation (c : ClassDeclaration) (keep : Service → Operation → Bool) : Bool :=
  (Service.assemble false [c] [] .none).toOption.isSome &&
    (servicesOf c).any fun s =>
      (WebResource.module options s).toOption.isSome && s.operations.any (keep s)

theorem exists_operation (c : ClassDeclaration) (keep : Service → Operation → Bool)
    (h : hasOperation c keep = true) :
    ∃ d', Service.assemble false [c] [] .none = .ok (servicesOf c, d') ∧
      ∃ s ∈ servicesOf c, (∃ blocks, WebResource.module options s = .ok blocks) ∧
        ∃ o ∈ s.operations, keep s o = true := by
  simp only [hasOperation, Bool.and_eq_true, List.any_eq_true] at h
  obtain ⟨hservices, s, hs, hmodule, o, ho, hkeep⟩ := h
  obtain ⟨r, hassemble⟩ := Fallible.exists_ok_of_isSome hservices
  refine ⟨r.2, ?_, s, hs, Fallible.exists_ok_of_isSome hmodule, o, ho, hkeep⟩
  rw [servicesOf, hassemble]
  rfl

/-- The operation takes these three arguments, and the namespace has those of the path. -/
def isMounted (s : Service) (o : Operation) : Bool :=
  o.arguments.map (·.name) = ["token", "id", "limit"] && o.arguments.all fun a =>
    !a.type.isVoid && (a.source != .path || s.mountedAt.params.keys.contains a.name)

/-- Some argument has no place in the model, no header, and no parameter of the namespace. -/
def losesArgument (s : Service) (o : Operation) : Bool :=
  o.arguments.any fun a => !a.type.isVoid &&
    (!((o.arguments.filter inModel).map (·.name)).contains a.name &&
      (((o.arguments.filter (·.source = .header)).map (·.name)).count a.name == 0 &&
        s.mountedAt.params.keys.count a.name == 0))

/-- The name of each argument occurs once in the documentation of its operation. -/
theorem mounted_documented_once :
    ∃ services d' blocks model, Service.assemble false [mounted] [] .none = .ok (services, d') ∧
      ∃ s ∈ services, WebResource.module options s = .ok blocks ∧
        ∃ o ∈ s.operations, Documents s o blocks model ∧
          o.arguments.map (·.name) = ["token", "id", "limit"] ∧
          ∀ a ∈ o.arguments,
            (documentedNames model (method s o) (resourceClass s)).count a.name = 1 := by
  obtain ⟨d', hservices, s, hs, ⟨blocks, hmodule⟩, o, ho, hkeep⟩ :=
    exists_operation mounted isMounted (by decide +kernel)
  simp only [isMounted, Bool.and_eq_true, decide_eq_true_eq, List.all_eq_true, Bool.not_eq_true',
    Bool.or_eq_true, bne_iff_ne, List.contains_iff_mem] at hkeep
  obtain ⟨hnames, harguments⟩ := hkeep
  obtain ⟨model, hdocuments, hcount⟩ := documented_once_iff hservices hs hmodule ho
  refine ⟨_, d', blocks, model, hservices, s, hs, hmodule, o, ho, hdocuments, hnames,
    fun a ha => ?_⟩
  obtain ⟨hvoid, hsource⟩ := harguments a ha
  refine ((hcount a ha hvoid).2 (by rw [hnames]; decide)).mpr fun hpath => ?_
  exact hsource.resolve_left fun hne => hne hpath

/-- A parameter of the path that only the documentation of the class names is documented
nowhere. -/
theorem not_all_documented_once :
    ¬ ∀ (needImplementation : Bool) (classes implementations : List ClassDeclaration)
        (d d' : Degradations) (services : List Service) (s : Service) (options : StubOptions)
        (blocks model : List Block) (o : Operation) (a : Argument),
      Service.assemble needImplementation classes implementations d = .ok (services, d') →
        s ∈ services → WebResource.module options s = .ok blocks → o ∈ s.operations →
          Documents s o blocks model → a ∈ o.arguments → a.type.isVoid = false →
            (documentedNames model (method s o) (resourceClass s)).count a.name = 1 := by
  intro hall
  obtain ⟨d', hservices, s, hs, ⟨blocks, hmodule⟩, o, ho, hkeep⟩ :=
    exists_operation unmounted losesArgument (by decide +kernel)
  simp only [losesArgument, List.any_eq_true, Bool.and_eq_true, Bool.not_eq_true', beq_iff_eq,
    List.contains_eq_mem, decide_eq_false_iff_not] at hkeep
  obtain ⟨a, ha, hvoid, hmodel, hheaders, hparams⟩ := hkeep
  obtain ⟨model, hdocuments⟩ := exists_documents hmodule ho
  have honce := hall _ _ _ _ _ _ _ _ _ _ _ _ hservices hs hmodule ho hdocuments ha hvoid
  rw [count_documentedNames hdocuments, if_neg hmodel, hheaders, hparams] at honce
  cases honce

end DocumentationWitness

end ServiceGen
