import Stencil.Script.Portrait
import Stencil.TypeTerm.Basic

/-!
Portraits of type terms: a class is shown by its name, also where arguments were applied to a class
of the language itself; any other term is shown by its kind.
-/

namespace Stencil.TypeTerm

open Script (Portrait)

def portrait : TypeTerm → Portrait
  | none => .data .null
  | noneClass => .cls "builtins.NoneType"
  | ellipsis => .other "ellipsis"
  | builtin name => .cls ("builtins." ++ name)
  | named module name _ _ => .cls (module.getD "None" ++ "." ++ name)
  | form "Any" => .cls "typing.Any"
  | form _ => .other "_SpecialForm"
  | aliasOf _ _ => .other "_SpecialGenericAlias"
  | applied Option.none (builtin name) _ => .cls ("builtins." ++ name)
  | applied _ _ _ => .other "_GenericAlias"
  | union _ _ => .other "_UnionGenericAlias"
  | literal _ => .other "_LiteralGenericAlias"
  | free _ => .other "TypeVar"
  | parameters _ => .other "ParamSpec"
  | newType _ _ => .other "NewType"
  | forward s => .data (.text s)
  | items _ => .list []
  | value d => .data d

end Stencil.TypeTerm
