/-!
Preference kinds, in the order in which annotations are looked up, and the
kinds of program elements. A preference kind fixes the Java type of its
accessors and the suffix of the store calls behind them.
-/

namespace PreferenceAccessors

inductive Kind
  | boolean
  | float
  | int
  | long
  | string
deriving DecidableEq, Repr

namespace Kind

def all : List Kind := [boolean, float, int, long, string]

theorem mem_all (k : Kind) : k ∈ all := by
  cases k <;> simp [all]

def name : Kind → String
  | boolean => "boolean"
  | float => "float"
  | int => "int"
  | long => "long"
  | string => "string"

def ofName? (s : String) : Option Kind :=
  all.find? fun k => k.name == s

theorem ofName?_name (k : Kind) : ofName? k.name = some k := by
  cases k <;> decide

def javaType : Kind → String
  | string => "String"
  | k => k.name

def storeMethod : Kind → String
  | boolean => "Boolean"
  | float => "Float"
  | int => "Int"
  | long => "Long"
  | string => "String"

def handlerName (k : Kind) : String :=
  k.storeMethod ++ "Strategy"

end Kind

inductive ElementKind
  | classElement
  | interfaceElement
  | fieldElement
  | methodElement
deriving DecidableEq, Repr

namespace ElementKind

def all : List ElementKind := [classElement, interfaceElement, fieldElement, methodElement]

def name : ElementKind → String
  | classElement => "class"
  | interfaceElement => "interface"
  | fieldElement => "field"
  | methodElement => "method"

def ofName? (s : String) : Option ElementKind :=
  all.find? fun k => k.name == s

end ElementKind

end PreferenceAccessors
