import CredentialRelay.Metrics.Exposition

/-!
# Probes

Three paths tell from outside how the process is doing: `/metrics` shows what it counted,
`/healthz` says that it runs, and `/readyz` says whether it has begun to work.

Only `GET` and `HEAD` are answered. Another method on one of the paths is refused, and so is every
other path, whatever the method. What follows a question mark does not matter.

Models the handlers of the three paths (`respond`).

Out of scope: the transport, and headers other than the type of the content.
-/

namespace CredentialRelay.Probe

/-- What a request gets. -/
structure Reply where
  status : Nat
  contentType : Option String
  /-- The metrics in the body; without them the body is empty. -/
  metrics : Option (List Metrics.Family)
  deriving Repr, DecidableEq

/-- A reply with nothing but a status. -/
def Reply.bare (status : Nat) : Reply :=
  ⟨status, none, none⟩

/-- What the paths are about. -/
inductive Page where
  | metrics
  | health
  | readiness
  deriving Repr, DecidableEq

/-- The page at a path, which is compared as it is written. -/
def Page.at? (path : String) : Option Page :=
  match path with
  | "/metrics" => some .metrics
  | "/healthz" => some .health
  | "/readyz" => some .readiness
  | _ => none

/-- The text before the first question mark. -/
def withoutQuery (target : String) : String :=
  String.ofList (target.toList.takeWhile (· != '?'))

/-- The reply to a `GET` request for a page. -/
def display (page : Page) (ready : Bool) (m : Metrics) : Reply :=
  match page with
  | .metrics => ⟨200, some "text/plain; version=0.0.4; charset=utf-8", some m.families⟩
  | .health => .bare 200
  | .readiness => .bare (if ready then 200 else 503)

/-- The reply to a request. A `HEAD` request gets no body. -/
def respond (method target : String) (ready : Bool) (m : Metrics) : Reply :=
  match Page.at? (withoutQuery target) with
  | none => .bare 404
  | some page =>
    if method = "GET" then display page ready m
    else if method = "HEAD" then { display page ready m with metrics := none }
    else .bare 405

end CredentialRelay.Probe
