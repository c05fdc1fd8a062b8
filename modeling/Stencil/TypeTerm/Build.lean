import Stencil.TypeTerm.Basic

/-!
Type expressions and the terms they build. Applying an alias turns text into a name still to be
found and the absent value into its class; building a union flattens it, drops repetitions and
leaves a single member alone.
-/

namespace Stencil

inductive TypeExpr where
  | builtin (name : String)
  /-- A name of the typing vocabulary. -/
  | typing (name : String)
  /-- An abstract collection. -/
  | collection (name : String)
  /-- One of the interpreter's own classes. -/
  | internal (name : String)
  | noneClass
  | ellipsis
  | templateBase
  | named (module : Option String) (name : String) (typeVariables : List String) (bases : List TypeExpr)
  | free (name : String)
  | parameters (name : String)
  | newType (module name : String)
  | index (definition : TypeExpr) (arguments : List TypeExpr)
  | bar (members : List TypeExpr)
  | literal (values : List Datum)
  | items (types : List TypeExpr)
  | value (datum : Datum)
  deriving Inhabited

namespace TypeTerm

def dropRepeats (ts : List TypeTerm) : List TypeTerm :=
  ts.foldl (fun kept t => if kept.any (t.same ·) then kept else kept ++ [t]) []

def members : TypeTerm → List TypeTerm
  | none => [noneClass]
  | union _ ts => ts
  | t => [t]

def unionOf (style : UnionStyle) (ts : List TypeTerm) : TypeTerm :=
  match dropRepeats (ts.flatMap members) with
  | [t] => t
  | ts => union style ts

def argument : TypeTerm → TypeTerm
  | value (.text s) => forward s
  | none => noneClass
  | t => t

def isTyping : TypeTerm → Bool
  | form _ | aliasOf _ _ | literal _ | free _ | parameters _ | newType _ _ | forward _ => true
  | applied (some _) _ _ => true
  | applied _ (named _ _ vs _) _ => !vs.isEmpty
  | union .named _ => true
  | _ => false

def bar (a b : TypeTerm) : TypeTerm :=
  unionOf (if a.isTyping || b.isTyping then .named else .bar) [a, b]

mutual

def substitute (values : List (String × TypeTerm)) : TypeTerm → TypeTerm
  | free name => (values.lookup name).getD (free name)
  | applied s o as => applied s o (substituteItems values as)
  | union style as => unionOf style (substituteItems values as)
  | items as => items (substituteItems values as)
  | t => t

def substituteItems (values : List (String × TypeTerm)) : List TypeTerm → List TypeTerm
  | [] => []
  | t :: ts => substitute values t :: substituteItems values ts

end

def callableArguments : List TypeTerm → List TypeTerm
  | [items ts, result] => [items (ts.map argument), argument result]
  | ts => ts.map argument

def annotated : TypeTerm := named (some "typing") "Annotated" [] []

def apply (definition : TypeTerm) (as : List TypeTerm) : TypeTerm :=
  match definition with
  | form "Optional" => unionOf .named (as.map argument ++ [noneClass])
  | form "Union" => unionOf .named (as.map argument)
  | form name => applied (some name) definition (as.map argument)
  | aliasOf "Callable" origin => applied (some "Callable") origin (callableArguments as)
  | aliasOf name origin => applied (some name) origin (as.map argument)
  | named (some "typing") "Annotated" _ _ =>
    match as with
    | applied (some "Annotated") o inner :: notes => applied (some "Annotated") o (inner ++ notes)
    | t :: notes => applied (some "Annotated") annotated (argument t :: notes)
    | [] => definition
  | named _ _ (_ :: _) _ => applied Option.none definition (as.map argument)
  | applied _ _ _ | union _ _ => substitute ((definition.typeVariables).zip (as.map argument)) definition
  | t => applied Option.none t as

def literalOf (values : List Datum) : TypeTerm :=
  literal (values.foldl
    (fun kept v => if kept.any (sameLiteral v) then kept else kept ++ [v]) [])

def plainClass (module name : String) : TypeTerm := named (some module) name [] []

def aliasOrigins : List (String × TypeTerm) :=
  [("List", builtin "list"), ("Dict", builtin "dict"), ("Tuple", builtin "tuple"),
   ("Set", builtin "set"), ("FrozenSet", builtin "frozenset"), ("Type", builtin "type")]
  ++ (["deque", "defaultdict", "OrderedDict", "Counter", "ChainMap"].zip
      ["Deque", "DefaultDict", "OrderedDict", "Counter", "ChainMap"]).map
    (fun (c, a) => (a, plainClass "collections" c))
  ++ ["Callable", "Iterable", "Iterator", "Reversible", "Container", "Collection", "Mapping",
      "MutableMapping", "Sequence", "MutableSequence", "MutableSet", "MappingView", "KeysView",
      "ItemsView", "ValuesView", "Generator", "AsyncGenerator", "Awaitable", "Coroutine",
      "AsyncIterable", "AsyncIterator", "Hashable", "Sized", "ByteString"].map
    (fun a => (a, plainClass "collections.abc" a))
  ++ [("AbstractSet", plainClass "collections.abc" "Set"),
      ("Pattern", plainClass "re" "Pattern"), ("Match", plainClass "re" "Match"),
      ("ContextManager", plainClass "contextlib" "AbstractContextManager"),
      ("AsyncContextManager", plainClass "contextlib" "AbstractAsyncContextManager")]

def typingClasses : List String :=
  ["Any", "Generic", "Annotated", "Protocol", "SupportsInt", "SupportsFloat", "SupportsComplex",
   "SupportsBytes", "SupportsIndex", "SupportsAbs", "SupportsRound", "TypeVar", "ParamSpec",
   "ForwardRef", "NewType", "IO", "TextIO", "BinaryIO", "TypeVarTuple"]

def typing (name : String) : TypeTerm :=
  if name == "Text" then builtin "str"
  else if name == "AnyStr" then free name
  else if typingClasses.contains name then plainClass "typing" name
  else
    match aliasOrigins.lookup name with
    | some origin => aliasOf name origin
    | Option.none => form name

def builtinNamed (name : String) : TypeTerm :=
  builtin (if name == "IOError" || name == "EnvironmentError" then "OSError" else name)

def internalClass (name : String) : TypeTerm :=
  match name with
  | "NoneType" => noneClass
  | "FunctionType" | "LambdaType" => plainClass "builtins" "function"
  | "ModuleType" => plainClass "builtins" "module"
  | "MappingProxyType" => plainClass "builtins" "mappingproxy"
  | "EllipsisType" => plainClass "builtins" "ellipsis"
  | "NotImplementedType" => plainClass "builtins" "NotImplementedType"
  | "MethodType" => plainClass "builtins" "method"
  | "BuiltinFunctionType" | "BuiltinMethodType" => plainClass "builtins" "builtin_function_or_method"
  | "CodeType" => plainClass "builtins" "code"
  | "CellType" => plainClass "builtins" "cell"
  | "FrameType" => plainClass "builtins" "frame"
  | "TracebackType" => plainClass "builtins" "traceback"
  | "GeneratorType" => plainClass "builtins" "generator"
  | "CoroutineType" => plainClass "builtins" "coroutine"
  | "AsyncGeneratorType" => plainClass "builtins" "async_generator"
  | "MethodWrapperType" => plainClass "builtins" "method-wrapper"
  | "WrapperDescriptorType" => plainClass "builtins" "wrapper_descriptor"
  | "MethodDescriptorType" => plainClass "builtins" "method_descriptor"
  | "ClassMethodDescriptorType" => plainClass "builtins" "classmethod_descriptor"
  | "GetSetDescriptorType" => plainClass "builtins" "getset_descriptor"
  | "MemberDescriptorType" => plainClass "builtins" "member_descriptor"
  | other => plainClass "types" other

def templateBase : TypeTerm := named (some "kiln.templates.base") "TemplateBase" ["TModel"] []

/-- A class; one without type variables of its own has those that its bases leave open. -/
def classOf (module : Option String) (name : String) (own : List String)
    (bases : List TypeTerm) : TypeTerm :=
  named module name (if own.isEmpty then variablesOf bases else own) bases

def ofDatum : Datum → TypeTerm
  | .null => none
  | d => value d

end TypeTerm

namespace TypeExpr

open TypeTerm (unionOf)

mutual

def build : TypeExpr → TypeTerm
  | builtin name => TypeTerm.builtinNamed name
  | typing name => TypeTerm.typing name
  | collection name => TypeTerm.plainClass "collections.abc" name
  | internal name => TypeTerm.internalClass name
  | noneClass => .noneClass
  | ellipsis => .ellipsis
  | templateBase => TypeTerm.templateBase
  | named m name own bases => TypeTerm.classOf m name own (buildAll bases)
  | free name => .free name
  | parameters name => .parameters name
  | newType m name => .newType m name
  | index definition as => (build definition).apply (buildAll as)
  | bar members =>
    match buildAll members with
    | [] => .none
    | first :: rest => rest.foldl TypeTerm.bar first
  | literal values => TypeTerm.literalOf values
  | items types => .items (buildAll types)
  | value d => TypeTerm.ofDatum d

def buildAll : List TypeExpr → List TypeTerm
  | [] => []
  | e :: es => build e :: buildAll es

end

end TypeExpr

end Stencil
