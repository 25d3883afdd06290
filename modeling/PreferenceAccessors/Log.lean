import PreferenceAccessors.Text.Quoted

/-!
The log of a pass. Notices are values, in the order in which things happen;
their level and wording are functions of the notice. Four notices only record
what was asked of the surroundings and are shown to nobody.

`Logged` pairs a value with the notices on the way to it.
-/

namespace PreferenceAccessors

inductive Level
  | debug
  | info
  | warning
  | error
deriving DecidableEq, Repr

inductive Notice
  | packageRead (package : Option String)
  | configUnreadable (reason : String)
  | configRefused (config reason : String)
  | configAbsent (config : String)
  | groupCreated (name : String)
  | groupWritten (qualified : String)
  | groupNotWritten (qualified reason : String)
  | passRefused (reason : String)
  | passSkipped
  | writing (groups : Nat) (package : String)
  | writingUnpackaged (groups : Nat)
  | elementsLoading (path : String)
  | elementsRefused (file summary : String)
  | directoryCreated (path : String)
  | fileOpened (qualified path : String)
  | generationFailed (reason : String)
  | filesWritten (names : List String)
  | finished (hundredths : Nat)
  | resourceAsked (name : String)
  | resourceHanded (name : String)
  | resourceClosed (name : String)
  | sinkAsked (qualified : String)
deriving DecidableEq, Repr

namespace Notice

def level? : Notice → Option Level
  | packageRead _ => some .debug
  | configUnreadable _ => some .warning
  | configRefused _ _ => some .debug
  | configAbsent _ => some .debug
  | groupCreated _ => some .debug
  | groupWritten _ => some .debug
  | groupNotWritten _ _ => some .error
  | passRefused _ => some .error
  | passSkipped => some .debug
  | writing _ _ => some .info
  | writingUnpackaged _ => some .info
  | elementsLoading _ => some .info
  | elementsRefused _ _ => some .error
  | directoryCreated _ => some .debug
  | fileOpened _ _ => some .debug
  | generationFailed _ => some .error
  | filesWritten _ => some .info
  | finished _ => some .debug
  | resourceAsked _ => none
  | resourceHanded _ => none
  | resourceClosed _ => none
  | sinkAsked _ => none

def text : Notice → String
  | packageRead none => "Got package name None"
  | packageRead (some package) => "Got package name " ++ Text.quoted package
  | configUnreadable reason => "Failed to read preference config: " ++ reason
  | configRefused config reason => "Could not open '" ++ config ++ "': " ++ reason
  | configAbsent config => "No '" ++ config ++ "' found, using annotations only"
  | groupCreated name => "Creating preference group '" ++ name ++ "'"
  | groupWritten qualified => "Wrote preference group '" ++ qualified ++ "'"
  | groupNotWritten qualified reason => "Failed to write '" ++ qualified ++ "': " ++ reason
  | passRefused reason => reason
  | passSkipped => "Generation pass already completed, skipping"
  | writing groups package =>
    "Writing " ++ toString groups ++ " preference groups to package '" ++ package ++ "'"
  | writingUnpackaged groups =>
    "Writing " ++ toString groups ++ " preference groups to package '[]'"
  | elementsLoading path => "Loading elements from " ++ path
  | elementsRefused file summary => "Invalid element file " ++ file ++ ": " ++ summary
  | directoryCreated path => "Creating output directory " ++ path
  | fileOpened qualified path => "Writing '" ++ qualified ++ "' to " ++ path
  | generationFailed reason => "Generation failed: " ++ reason
  | filesWritten names =>
    "Wrote " ++ toString names.length ++ " files: " ++ ", ".intercalate names
  | finished hundredths =>
    "Done after " ++ toString (hundredths / 100) ++ "." ++ toString (hundredths / 10 % 10) ++
      toString (hundredths % 10) ++ " seconds."
  | resourceAsked name => name
  | resourceHanded name => name
  | resourceClosed name => name
  | sinkAsked qualified => qualified

end Notice

structure Logged (α : Type) where
  value : α
  log : List Notice

namespace Logged

def tell (n : Notice) : Logged Unit :=
  ⟨(), [n]⟩

instance : Monad Logged where
  pure a := ⟨a, []⟩
  bind x f := ⟨(f x.value).value, x.log ++ (f x.value).log⟩

@[simp] theorem pure_value {α : Type} (a : α) : (pure a : Logged α).value = a := rfl

@[simp] theorem pure_log {α : Type} (a : α) : (pure a : Logged α).log = [] := rfl

@[simp] theorem bind_value {α β : Type} (x : Logged α) (f : α → Logged β) :
    (x >>= f).value = (f x.value).value := rfl

@[simp] theorem bind_log {α β : Type} (x : Logged α) (f : α → Logged β) :
    (x >>= f).log = x.log ++ (f x.value).log := rfl

@[simp] theorem map_value {α β : Type} (f : α → β) (x : Logged α) :
    (f <$> x).value = f x.value := rfl

@[simp] theorem map_log {α β : Type} (f : α → β) (x : Logged α) : (f <$> x).log = x.log :=
  List.append_nil _

@[simp] theorem tell_log (n : Notice) : (tell n).log = [n] := rfl

instance : LawfulMonad Logged :=
  LawfulMonad.mk' Logged
    (fun _ => by simp [Functor.map])
    (fun _ _ => by simp [pure, bind])
    (fun _ _ _ => by simp [bind])

end Logged

end PreferenceAccessors
