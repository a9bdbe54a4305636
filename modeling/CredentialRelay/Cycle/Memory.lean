import CredentialRelay.Cycle.Basic

/-!
# Services in memory

A world in which nothing is remote: the secret, the failures that reading it and opening sessions
meet, and the paths at which nothing can be stored are all given. It keeps what was asked of it.
-/

namespace CredentialRelay

open CredentialRelay.Cycle

/-- A credential that was stored. -/
structure StoredCredential where
  mount : String
  path : String
  attributes : Attributes
  deriving DecidableEq

/-- Everything that services in memory know. -/
structure Memory where
  /-- The secret, if there is one. -/
  secret : Option Snapshot
  /-- The failure of every reading. -/
  readFailure : Option (Failure Service.Cause)
  /-- The failure of every login. -/
  loginFailure : Option (Failure Service.Cause)
  /-- The failures of storing at some paths. -/
  denied : Dictionary (Option (Failure Service.Cause))
  /-- The namespaces and names that were read, in order. -/
  reads : List (String × String)
  /-- How many sessions were asked for. -/
  logins : Nat
  /-- What was stored, in order. -/
  writes : List StoredCredential

namespace Memory

/-- No secret and no failures. -/
def empty : Memory :=
  ⟨none, none, none, Dictionary.empty, [], 0, []⟩

/-- The world without what was asked of it. -/
def forget (m : Memory) : Memory :=
  { m with reads := [], logins := 0, writes := [] }

/-- Shows a snapshot from now on. -/
def setSecret (m : Memory) (snapshot : Snapshot) : Memory :=
  { m with secret := some snapshot }

/-- Lets storing at a path fail from now on. -/
def deny (m : Memory) (path : String) (failure : Failure Service.Cause) : Memory :=
  { m with denied := m.denied.insert path (some failure) }

/-- Lets storing at a path work from now on. -/
def allow (m : Memory) (path : String) : Memory :=
  { m with denied := m.denied.insert path none }

/-- The failure of storing at a path. -/
def denial? (m : Memory) (path : String) : Option (Failure Service.Cause) :=
  (m.denied.get? path).join

/-- A result that is a failure if one is given. -/
def orFailure {α : Type} (failure : Option (Failure Service.Cause)) (value : α) :
    Except (Failure Service.Cause) α :=
  match failure with
  | some failure => .error failure
  | none => .ok value

/-- What reading the secret gives. -/
def readResult (m : Memory) (namespaceName name : String) :
    Except (Failure Service.Cause) Snapshot :=
  match m.readFailure, m.secret with
  | some failure, _ => .error failure
  | none, some snapshot => .ok snapshot
  | none, none => fail (.told s!"secret {namespaceName}/{name} has no data")

/-- The services. -/
def services : Services Memory Unit where
  read namespaceName name m :=
    .ofResult (m.readResult namespaceName name)
      { m with reads := m.reads ++ [(namespaceName, name)] }
  login m := .ofResult (orFailure m.loginFailure ()) { m with logins := m.logins + 1 }
  store _ mount path attributes m :=
    match m.denial? path with
    | some failure => .ofResult (.error failure) m
    | none => .success () { m with writes := m.writes ++ [⟨mount, path, attributes⟩] }

end Memory

end CredentialRelay
