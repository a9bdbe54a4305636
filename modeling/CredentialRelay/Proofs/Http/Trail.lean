import CredentialRelay.Http.Exchange
import CredentialRelay.Proofs.Attempt

/-!
# The trail of an exchange

A request is sent, and each response that sends it elsewhere leads to another request, until one
response sends it nowhere. The trail of an exchange are the requests with the response that each of
them got.

* `Trail locate first followed last`: from the request `first`, the hops `followed` were followed
  one after another, and `last` is the hop whose response came back. Locations are understood by
  `locate`.
* `Trail.turned`: some followed response had the status 301, 302 or 303.

Results:
* `follow_trail`: an exchange that gives a response has a trail, which is what the peer was asked,
  and the peer answered it from its replies in their order.
* `Trail.last_kept`, `Trail.last_lost`: the last request has the method and the body of the first
  one, or, if the trail turned, is a `GET` without a body.
-/

namespace CredentialRelay.Http

variable {β : Type}

/-- A request with the response that it got. -/
structure Hop (β : Type) where
  request : Request β
  response : Response

/-- The hops from a request on: those that were followed, and the last one. -/
inductive Trail (locate : Locate) : Request β → List (Hop β) → Hop β → Prop
  | stop {request : Request β} {response : Response}
      (h : redirected locate request response = .ok none) :
    Trail locate request [] ⟨request, response⟩
  | follow {request next : Request β} {response : Response} {followed : List (Hop β)}
      {last : Hop β} (h : redirected locate request response = .ok (some next))
      (rest : Trail locate next followed last) :
    Trail locate request (⟨request, response⟩ :: followed) last

/-- Whether some response that was followed turned the request into a `GET`. -/
def Trail.turned (followed : List (Hop β)) : Bool :=
  followed.any fun hop => turnsIntoGet hop.response.status

/-! ## What a redirection keeps -/

variable {locate : Locate}

/-- A redirection that turns nothing into a `GET` keeps the method and the body. -/
theorem redirected_kept {request next : Request β} {response : Response}
    (h : redirected locate request response = .ok (some next))
    (hs : turnsIntoGet response.status = false) :
    next.method = request.method ∧ next.body = request.body := by
  obtain ⟨url, -, ⟨hturns, -⟩ | ⟨-, rfl⟩⟩ := redirected_cases h
  · rw [hs] at hturns
    cases hturns
  · exact ⟨rfl, rfl⟩

/-- A `GET` without a body stays one. -/
theorem redirected_get {request next : Request β} {response : Response}
    (h : redirected locate request response = .ok (some next))
    (hr : request.method = .get ∧ request.body = none) :
    next.method = .get ∧ next.body = none := by
  obtain ⟨url, -, ⟨-, rfl⟩ | ⟨-, rfl⟩⟩ := redirected_cases h
  · exact ⟨rfl, rfl⟩
  · exact hr

namespace Trail

/-- Without a turn, the last request has the method and the body of the first one. -/
theorem last_kept {first : Request β} {followed : List (Hop β)} {last : Hop β}
    (ht : Trail locate first followed last) (h : turned followed = false) :
    last.request.method = first.method ∧ last.request.body = first.body := by
  induction ht with
  | stop _ => exact ⟨rfl, rfl⟩
  | follow hr _ ih =>
    obtain ⟨hs, hrest⟩ := Bool.or_eq_false_iff.mp h
    obtain ⟨hm, hb⟩ := redirected_kept hr hs
    exact ⟨(ih hrest).1.trans hm, (ih hrest).2.trans hb⟩

/-- From a `GET` without a body on, the last request is one. -/
theorem last_get {first : Request β} {followed : List (Hop β)} {last : Hop β}
    (ht : Trail locate first followed last) (h : first.method = .get ∧ first.body = none) :
    last.request.method = .get ∧ last.request.body = none := by
  induction ht with
  | stop _ => exact h
  | follow hr _ ih => exact ih (redirected_get hr h)

/-- After a turn, the last request is a `GET` without a body. -/
theorem last_lost {first : Request β} {followed : List (Hop β)} {last : Hop β}
    (ht : Trail locate first followed last) (h : turned followed = true) :
    last.request.method = .get ∧ last.request.body = none := by
  induction ht with
  | stop _ => cases h
  | follow hr rest ih =>
    rcases Bool.or_eq_true_iff.mp h with hs | hrest
    · exact rest.last_get (redirected_method_eq_get hr hs)
    · exact ih hrest

end Trail

/-! ## What a peer is asked -/

/-- A request that gets a response is asked of the peer, which takes its next reply. -/
theorem deliver_ok {peer : Peer β} {request : Request β} {response : Response}
    (h : (peer.deliver request).result = .ok response) :
    (peer.deliver request).world =
        { peer with replies := peer.replies.tail, asked := peer.asked ++ [request] } ∧
      (peer.replies = .respond response :: peer.replies.tail ∨
        peer.replies = [] ∧ response = exhausted) := by
  obtain ⟨link, locate, replies, asked⟩ := peer
  unfold Peer.deliver at h ⊢
  cases link with
  | unreachable => cases h
  | working =>
    cases replies with
    | nil =>
      cases h
      exact ⟨rfl, .inr ⟨rfl, rfl⟩⟩
    | cons reply replies =>
      cases reply with
      | respond _ =>
        cases h
        exact ⟨rfl, .inl rfl⟩
      | drop => cases h

/-- The answer of a peer without replies sends nowhere. -/
theorem redirected_exhausted (locate : Locate) (request : Request β) :
    redirected locate request exhausted = .ok none := rfl

/-- One round of an exchange, for any number of responses that may be followed. -/
theorem follow_eq (left : Nat) (request : Request β) (peer : Peer β) :
    follow left request peer = (peer.deliver request).andThen fun response peer =>
      match redirected peer.locate request response with
      | .error failure => .ofResult (.error failure) peer
      | .ok none => .success response peer
      | .ok (some next) =>
        match left with
        | 0 =>
          .ofResult (CredentialRelay.within (.following request.url) (fail .tooManyRedirects)) peer
        | left + 1 =>
          if isSendable next.url then follow left next peer
          else
            .ofResult (CredentialRelay.within (.building (some next.url)) (fail .badScheme))
              peer := by
  cases left <;> rfl

/-- An exchange that gives a response got it for its first request, or for the one that the first
response asked for instead. -/
theorem follow_ok {left : Nat} {request : Request β} {peer : Peer β} {response : Response}
    (h : (follow left request peer).result = .ok response) :
    ∃ first, (peer.deliver request).result = .ok first ∧
      (redirected peer.locate request first = .ok none ∧ first = response ∧
          (follow left request peer).world = (peer.deliver request).world ∨
        ∃ next rest, redirected peer.locate request first = .ok (some next) ∧ left = rest + 1 ∧
          (follow rest next (peer.deliver request).world).result = .ok response ∧
          (follow left request peer).world =
            (follow rest next (peer.deliver request).world).world) := by
  rw [follow_eq] at h ⊢
  obtain ⟨first, hd, hnext, hworld⟩ := Attempt.andThen_ok h
  have hlocate : (peer.deliver request).world.locate = peer.locate := by
    rw [(deliver_ok hd).1]
  refine ⟨first, hd, ?_⟩
  rw [hworld]
  simp only [hlocate] at hnext ⊢
  rcases hr : redirected peer.locate request first with failure | (_ | next)
  · simp only [hr] at hnext
    cases hnext
  · simp only [hr] at hnext ⊢
    cases hnext
    exact .inl ⟨trivial, rfl, rfl⟩
  · cases left with
    | zero =>
      simp only [hr] at hnext
      cases hnext
    | succ rest =>
      simp only [hr] at hnext ⊢
      split at hnext
      · next hsend =>
        rw [if_pos hsend]
        exact .inr ⟨next, rest, rfl, rfl, hnext, rfl⟩
      · cases hnext

/-- **An exchange that gives a response has a trail.** The peer was asked the requests of its hops
in their order, and answered each with its next reply; when these are used up, it says so. -/
theorem follow_trail {response : Response} : ∀ {left : Nat} {request : Request β} {peer : Peer β},
    (follow left request peer).result = .ok response →
      ∃ followed last, Trail peer.locate request followed last ∧ last.response = response ∧
        followed.length ≤ left ∧
        (follow left request peer).world.asked =
          peer.asked ++ (followed ++ [last]).map Hop.request ∧
        (followed ++ [last]).map (fun hop => .respond hop.response) <+:
          peer.replies ++ [.respond exhausted] := by
  intro left request peer h
  obtain ⟨first, hd, hcases⟩ := follow_ok h
  obtain ⟨hworld, hreplies⟩ := deliver_ok hd
  rcases hcases with ⟨hr, rfl, hsame⟩ | ⟨next, rest, hr, rfl, hrest, hsame⟩
  · refine ⟨[], ⟨request, first⟩, .stop hr, rfl, Nat.zero_le _, ?_, ?_⟩
    · rw [hsame, hworld]
      rfl
    · rcases hreplies with hreplies | ⟨hnil, rfl⟩
      · rw [hreplies]
        exact ⟨_, rfl⟩
      · rw [hnil]
        exact ⟨[], rfl⟩
  · obtain ⟨followed, last, ht, hlast, hlength, hasked, hanswers⟩ := follow_trail hrest
    rw [hworld] at ht hasked hanswers
    refine ⟨⟨request, first⟩ :: followed, last, .follow hr ht, hlast,
      Nat.succ_le_succ hlength, ?_, ?_⟩
    · rw [hsame, hworld, hasked]
      simp
    · rcases hreplies with hreplies | ⟨-, rfl⟩
      · rw [hreplies]
        exact List.cons_prefix_cons.mpr ⟨rfl, hanswers⟩
      · rw [redirected_exhausted] at hr
        cases hr

end CredentialRelay.Http
