import Stencil.Script.Value
import Stencil.Text.Lines

/-!
The library that source finds: its classes with what they inherit and which methods they have, and
its modules with what they export. Everything here is a table; what the routines do is said where
they are carried out.
-/

namespace Stencil.Script.Library

def words (s : String) : List String := Text.pieces ' ' s

def wordsOf (lines : List String) : List String := lines.flatMap words

def full (module name : String) : String := module ++ "." ++ name

def builtin (name : String) : String := full "builtins" name

def split (name : String) : String × String :=
  let after := (name.toList.reverse.takeWhile (· != '.')).reverse
  (String.ofList (name.toList.take (name.length - after.length - 1)), String.ofList after)

def errorFamilies : List (String × List String) :=
  [("BaseException", ["Exception", "SystemExit", "KeyboardInterrupt", "GeneratorExit"]),
   ("Exception", ["StopIteration", "StopAsyncIteration", "ArithmeticError", "AssertionError",
     "AttributeError", "BufferError", "EOFError", "ImportError", "LookupError", "MemoryError",
     "NameError", "OSError", "ReferenceError", "RuntimeError", "SyntaxError", "SystemError",
     "TypeError", "ValueError", "Warning"]),
   ("ArithmeticError", ["FloatingPointError", "OverflowError", "ZeroDivisionError"]),
   ("ImportError", ["ModuleNotFoundError"]),
   ("LookupError", ["IndexError", "KeyError"]),
   ("NameError", ["UnboundLocalError"]),
   ("OSError", ["BlockingIOError", "ChildProcessError", "ConnectionError", "FileExistsError",
     "FileNotFoundError", "InterruptedError", "IsADirectoryError", "NotADirectoryError",
     "PermissionError", "ProcessLookupError", "TimeoutError"]),
   ("ConnectionError", ["BrokenPipeError", "ConnectionAbortedError", "ConnectionRefusedError",
     "ConnectionResetError"]),
   ("RuntimeError", ["NotImplementedError", "RecursionError"]),
   ("SyntaxError", ["IndentationError"]),
   ("IndentationError", ["TabError"]),
   ("ValueError", ["UnicodeError"]),
   ("UnicodeError", ["UnicodeDecodeError", "UnicodeEncodeError", "UnicodeTranslateError"]),
   ("Warning", ["BytesWarning", "DeprecationWarning", "EncodingWarning", "FutureWarning",
     "ImportWarning", "PendingDeprecationWarning", "ResourceWarning", "RuntimeWarning",
     "SyntaxWarning", "UnicodeWarning", "UserWarning"])]

def systemErrors : List (Int × String) :=
  [(1, "PermissionError"), (2, "FileNotFoundError"), (3, "ProcessLookupError"),
   (4, "InterruptedError"), (10, "ChildProcessError"), (11, "BlockingIOError"),
   (13, "PermissionError"), (17, "FileExistsError"), (20, "NotADirectoryError"),
   (21, "IsADirectoryError"), (32, "BrokenPipeError"), (103, "ConnectionAbortedError"),
   (104, "ConnectionResetError"), (108, "BrokenPipeError"), (110, "TimeoutError"),
   (111, "ConnectionRefusedError"), (114, "BlockingIOError"), (115, "BlockingIOError")]

def errorNames : List String :=
  "BaseException" :: errorFamilies.flatMap Prod.snd

def plainClasses : List String :=
  wordsOf ["type int float complex str bytes bytearray memoryview list tuple dict set frozenset range",
     "slice enumerate zip map filter reversed property staticmethod classmethod super"]

def templateClass : String := "kiln.templates.base.TemplateBase"

def compilerError : String := "kiln.compiler.errors.KilnError"

def otherBases : List (String × List String) :=
  [("abc.ABC", ["builtins.object"]),
   ("typing.Generic", ["builtins.object"]),
   ("typing.Any", ["builtins.object"]),
   ("json.decoder.JSONDecoder", ["builtins.object"]),
   ("json.encoder.JSONEncoder", ["builtins.object"]),
   ("json.decoder.JSONDecodeError", ["builtins.ValueError"]),
   (compilerError, ["builtins.Exception"]),
   (templateClass, ["abc.ABC", "typing.Generic"])]

def bases (name : String) : List String :=
  if name == "builtins.object" then []
  else if name == "builtins.bool" then ["builtins.int"]
  else
    match otherBases.lookup name with
    | some bs => bs
    | none =>
      let (module, short) := split name
      if module == "builtins" then
        match errorFamilies.find? fun (_, members) => members.contains short with
        | some (family, _) => [builtin family]
        | none => ["builtins.object"]
      else ["builtins.object"]

/-- The order in which attributes of a library class are looked for, up to a depth. -/
def orderUpTo : Nat → String → List String
  | 0, _ => []
  | depth + 1, name =>
    if name == templateClass then
      [name, "abc.ABC", "typing.Generic", "builtins.object"]
    else name :: ((bases name).head?.map (orderUpTo depth)).getD []

def order (name : String) : List String := orderUpTo 8 name

def methods (name : String) : List String :=
  match name with
  | "builtins.object" =>
    words "__init__ __str__ __repr__ __eq__ __ne__ __hash__ __setattr__ __getattribute__ __format__"
  | "builtins.BaseException" => words "__init__ __str__ __repr__ with_traceback add_note"
  | "builtins.str" =>
    wordsOf ["upper lower strip lstrip rstrip split rsplit join replace startswith endswith find",
     "rfind index rindex count title capitalize swapcase casefold isdigit isalpha isalnum isspace isupper",
     "islower isidentifier partition rpartition splitlines zfill ljust rjust center encode removeprefix",
     "removesuffix format __len__ __iter__ __getitem__ __contains__ __add__"]
  | "builtins.list" =>
    wordsOf ["append extend insert pop remove clear copy index count reverse sort __len__ __iter__",
     "__getitem__ __setitem__ __contains__"]
  | "builtins.tuple" => words "count index __len__ __iter__ __getitem__ __contains__"
  | "builtins.dict" =>
    wordsOf ["get items keys values pop popitem setdefault update clear copy __len__ __iter__",
     "__getitem__ __setitem__ __contains__"]
  | "builtins.set" =>
    wordsOf ["add discard remove update union intersection difference issubset issuperset copy clear",
     "pop __len__ __iter__ __contains__"]
  | "builtins.frozenset" =>
    words "union intersection difference issubset issuperset copy __len__ __iter__ __contains__"
  | "builtins.bytes" => words "decode hex __len__ __iter__ __getitem__ __contains__"
  | "builtins.int" => words "bit_length conjugate"
  | "builtins.float" => words "is_integer conjugate"
  | "builtins.range" => words "__len__ __iter__ __getitem__ __contains__"
  | "builtins.generator" => words "__iter__ __next__ send close"
  | "builtins.type" => words "mro"
  | "json.decoder.JSONDecoder" => words "decode"
  | "json.encoder.JSONEncoder" => words "encode"
  | "kiln.templates.base.TemplateBase" => words "__init__ execute write write_literal run"
  | _ => []

def missing (name : String) : List String :=
  if name == templateClass then ["execute"] else []

def functions : List String :=
  wordsOf ["len repr sorted sum max min any all hasattr getattr setattr delattr isinstance issubclass",
     "globals locals vars print abs round divmod pow chr ord iter next callable id hash format dir hex oct",
     "bin ascii __build_class__ __import__"]

def builtinValues : List (String × Value) :=
  (plainClasses ++ ["object", "bool"] ++ errorNames).map
      (fun n => (n, Value.cls (.library (builtin n))))
    ++ [("IOError", .cls (.library "builtins.OSError")),
        ("EnvironmentError", .cls (.library "builtins.OSError")),
        ("Ellipsis", .ellipsis), ("NotImplemented", .notImplemented), ("__debug__", .bool true)]
    ++ functions.map fun n => (n, .routine (builtin n))

structure Module where
  name : String
  /-- Its file under the folder of its origin. -/
  file : Option String
  isPackage : Bool
  /-- Whether it belongs to the engine rather than to the library at large. -/
  isOwn : Bool := false
  values : List (String × Value)
  /-- The names it offers, if it says so. -/
  offered : Option (List String)

def classOf (module name : String) : String × Value := (name, .cls (.library (full module name)))

def routineOf (module name : String) : String × Value := (name, .routine (full module name))

def typingClasses : List String := wordsOf ["Any Generic Protocol Annotated ForwardRef TypeVar",
     "ParamSpec TypeVarTuple ParamSpecArgs ParamSpecKwargs NewType SupportsAbs SupportsBytes",
     "SupportsComplex SupportsFloat SupportsIndex SupportsInt SupportsRound IO TextIO BinaryIO"]

def typingFunctions : List String := wordsOf ["NamedTuple TypedDict assert_type assert_never cast",
     "clear_overloads dataclass_transform final get_args get_origin get_overloads get_type_hints",
     "is_typeddict no_type_check no_type_check_decorator overload reveal_type runtime_checkable"]

def typingForms : List String := wordsOf ["Callable ClassVar Concatenate Final Literal Optional Tuple",
     "Type Union AbstractSet ByteString Container ContextManager Hashable ItemsView Iterable Iterator",
     "KeysView Mapping MappingView MutableMapping MutableSequence MutableSet Sequence Sized ValuesView",
     "Awaitable AsyncIterator AsyncIterable Coroutine Collection AsyncGenerator AsyncContextManager",
     "Reversible ChainMap Counter Deque Dict DefaultDict List OrderedDict Set FrozenSet Generator Match",
     "Pattern LiteralString Never NoReturn NotRequired Required Self TypeAlias TypeGuard Unpack"]

def specialForms : List String := wordsOf ["ClassVar Concatenate Final Literal Optional Union",
     "LiteralString Never NoReturn NotRequired Required Self TypeAlias TypeGuard Unpack"]

def typingValues : List (String × Value) :=
  typingClasses.map (classOf "typing") ++ typingFunctions.map (routineOf "typing")
    ++ typingForms.map (fun n => (n, .form n))
    ++ [("AnyStr", .form "AnyStr"), ("Text", .cls (.library "builtins.str")),
        ("TYPE_CHECKING", .bool false)]

def warningNames : List String := wordsOf ["warn warn_explicit showwarning formatwarning filterwarnings",
     "simplefilter resetwarnings catch_warnings"]

def futureNames : List String := wordsOf ["nested_scopes generators division absolute_import",
     "with_statement print_function unicode_literals barry_as_FLUFL generator_stop annotations"]

/-- The modules of the library; values that are modules themselves are joined in later. -/
def modules : List Module :=
  [⟨"builtins", none, false, false, builtinValues, none⟩,
   ⟨"__future__", some "__future__.py", false, false,
     futureNames.map (fun n => (n, .form n)), some ("all_feature_names" :: futureNames)⟩,
   ⟨"abc", some "abc.py", false, false,
     [classOf "abc" "ABC", routineOf "abc" "abstractmethod"], none⟩,
   ⟨"json", some "json/__init__.py", true, false,
     [routineOf "json" "dump", routineOf "json" "dumps", routineOf "json" "load",
      routineOf "json" "loads", classOf "json.decoder" "JSONDecoder",
      classOf "json.decoder" "JSONDecodeError", classOf "json.encoder" "JSONEncoder"],
     some (words "dump dumps load loads JSONDecoder JSONDecodeError JSONEncoder")⟩,
   ⟨"json.decoder", some "json/decoder.py", false, false,
     [classOf "json.decoder" "JSONDecoder", classOf "json.decoder" "JSONDecodeError"],
     some (words "JSONDecoder JSONDecodeError")⟩,
   ⟨"json.encoder", some "json/encoder.py", false, false,
     [classOf "json.encoder" "JSONEncoder"], none⟩,
   ⟨"typing", some "typing.py", false, false, typingValues,
     some (typingValues.map Prod.fst)⟩,
   ⟨"warnings", some "warnings.py", false, false, warningNames.map (routineOf "warnings"),
     some warningNames⟩,
   ⟨"html", some "html/__init__.py", true, false,
     [routineOf "html" "escape", routineOf "html" "unescape"], some (words "escape unescape")⟩,
   ⟨"kiln", some "__init__.py", true, true, [("__version__", .text "0.1.0")], none⟩,
   ⟨"kiln.templates", some "templates/__init__.py", true, true,
     [("TModel", .form "TModel"), classOf "kiln.templates.base" "TemplateBase"],
     some (words "TModel TemplateBase")⟩,
   ⟨"kiln.templates.base", some "templates/base.py", false, true,
     [classOf "abc" "ABC", routineOf "abc" "abstractmethod", classOf "typing" "Any",
      classOf "typing" "Generic", classOf "typing" "TypeVar", ("TModel", .form "TModel"),
      classOf "kiln.templates.base" "TemplateBase"], none⟩]

end Stencil.Script.Library
