import PreferenceAccessors.Kind

/-!
Registries of accessor writers. A registry is built from a mapping of kind
names to handlers; it stands only when every kind is there and every name has
the handler of its own kind. Iteration is in the order of the kinds.
-/

namespace PreferenceAccessors

inductive RegistryError
  | missing (kinds : List Kind)
  | mismatched (name : String) (handler : Kind)
deriving DecidableEq, Repr

def RegistryError.message : RegistryError → String
  | missing kinds => "No strategy registered for: " ++ ", ".intercalate (kinds.map Kind.name)
  | mismatched name handler =>
    "Strategy " ++ handler.handlerName ++ " registered for '" ++ name ++ "' handles '" ++
      handler.name ++ "'"

structure Registry where
  entries : List (Kind × Kind)
deriving DecidableEq, Repr

namespace Registry

/-- As a mapping: a repeated name keeps its place and takes the last handler. -/
def mapping (entries : List (String × Kind)) : List (String × Kind) :=
  entries.foldl (fun acc e =>
    if acc.any (·.1 == e.1) then acc.map fun a => if a.1 == e.1 then e else a
    else acc ++ [e]) []

def build (entries : List (String × Kind)) : Except RegistryError Registry :=
  let m := mapping entries
  let missing := Kind.all.filter fun k => !m.any (·.1 == k.name)
  if missing ≠ [] then .error (.missing missing)
  else match m.find? fun e => e.1 != e.2.name with
    | some (name, handler) => .error (.mismatched name handler)
    | none => .ok ⟨Kind.all.filterMap fun k =>
        (m.find? (·.1 == k.name)).map fun e => (k, e.2)⟩

def standard : Registry :=
  ⟨Kind.all.map fun k => (k, k)⟩

def kinds (r : Registry) : List Kind :=
  r.entries.map (·.1)

def handlers (r : Registry) : List Kind :=
  r.entries.map (·.2)

def get? (r : Registry) (name : String) : Option Kind :=
  (r.entries.find? (·.1.name == name)).map (·.2)

end Registry

end PreferenceAccessors
