import CredentialRelay.Proofs.Http.Trail

/-!
# Chains of requests

Whatever comes of an exchange, what the peer is asked is a chain: the request itself, then the one
that its response asks for instead, and so on. Every request of a chain carries the token of the
first one. A chain leads away from the place where it began exactly if some response on the way
points elsewhere.

* `Chain locate first followed asked`: from the request `first`, the responses of the hops
  `followed` were followed one after another, and the peer was asked `asked`.
* `Hop.StaysAt locate origin`: the response points to no other origin.
* `Extends before after followed asked`: what a peer has become that was asked `asked`.

Results:
* `Chain.token_iff`: all requests with a token go to one origin exactly if all responses to
  them that were followed stay there.
* `follow_chain`: an exchange with a peer that can be reached is a chain.
-/

namespace CredentialRelay.Http

variable {β : Type}

/-- A request with what came of it: the hops whose responses were followed, and what was asked. -/
inductive Chain (locate : Locate) : Request β → List (Hop β) → List (Request β) → Prop
  | stop (request : Request β) : Chain locate request [] [request]
  | follow {request next : Request β} {response : Response} {followed : List (Hop β)}
      {asked : List (Request β)} (hnext : redirected locate request response = .ok (some next))
      (rest : Chain locate next followed asked) :
    Chain locate request (⟨request, response⟩ :: followed) (request :: asked)

/-- The response points to no other origin. -/
def Hop.StaysAt (locate : Locate) (origin : Url.Origin) (hop : Hop β) : Prop :=
  ∀ next, redirected locate hop.request hop.response = .ok (some next) → next.url.origin = origin

/-! ## What a chain keeps -/

namespace Chain

variable {locate : Locate} {first : Request β} {followed : List (Hop β)}
variable {asked : List (Request β)}

/-- The first request is asked first. -/
theorem exists_cons (h : Chain locate first followed asked) : ∃ more, asked = first :: more := by
  cases h with
  | stop => exact ⟨[], rfl⟩
  | follow hnext rest => exact ⟨_, rfl⟩

theorem mem_first (h : Chain locate first followed asked) : first ∈ asked := by
  obtain ⟨more, rfl⟩ := h.exists_cons
  exact List.mem_cons_self

/-- Every request carries the token of the first one. -/
theorem token_eq (h : Chain locate first followed asked) :
    (∀ request ∈ asked, request.token = first.token) ∧
      ∀ hop ∈ followed, hop.request.token = first.token := by
  induction h with
  | stop => simp
  | follow hnext rest ih =>
    have htoken := redirected_token hnext
    refine ⟨fun request hrequest => ?_, fun hop hhop => ?_⟩
    · rcases List.mem_cons.mp hrequest with rfl | hrequest
      · rfl
      · exact (ih.1 request hrequest).trans htoken
    · rcases List.mem_cons.mp hhop with rfl | hhop
      · rfl
      · exact (ih.2 hop hhop).trans htoken

/-- **A chain stays at an origin exactly if every response that was followed stays there.** -/
theorem stays_iff {origin : Url.Origin} (h : Chain locate first followed asked)
    (horigin : first.url.origin = origin) :
    (∀ request ∈ asked, request.url.origin = origin) ↔
      ∀ hop ∈ followed, hop.StaysAt locate origin := by
  induction h with
  | stop => simpa using horigin
  | @follow request next response followed asked hnext rest ih =>
    constructor
    · intro hall
      have hnextOrigin := hall next (List.mem_cons_of_mem _ rest.mem_first)
      have hstays := (ih hnextOrigin).mp fun r hr => hall r (List.mem_cons_of_mem _ hr)
      intro hop hhop
      rcases List.mem_cons.mp hhop with rfl | hhop
      · intro other hother
        obtain rfl := Option.some.inj (Except.ok.inj (hnext.symm.trans hother))
        exact hnextOrigin
      · exact hstays hop hhop
    · intro hall
      have hstays := (ih (hall _ List.mem_cons_self next hnext)).mpr
        fun hop hhop => hall hop (List.mem_cons_of_mem _ hhop)
      intro r hr
      rcases List.mem_cons.mp hr with rfl | hr
      · exact horigin
      · exact hstays r hr

/-- **The token stays at an origin** exactly if every response to it that was followed stays
there. -/
theorem token_iff {origin : Url.Origin} (h : Chain locate first followed asked)
    (horigin : first.url.origin = origin) :
    (∀ request ∈ asked, request.token.isSome = true → request.url.origin = origin) ↔
      ∀ hop ∈ followed, hop.request.token.isSome = true → hop.StaysAt locate origin := by
  obtain ⟨hasked, hfollowed⟩ := h.token_eq
  cases htoken : first.token.isSome with
  | true =>
    have hstays := h.stays_iff horigin
    constructor
    · intro hall hop hhop _
      refine hstays.mp (fun request hrequest => hall request hrequest ?_) hop hhop
      rw [hasked request hrequest, htoken]
    · intro hall request hrequest _
      refine hstays.mpr (fun hop hhop => hall hop hhop ?_) request hrequest
      rw [hfollowed hop hhop, htoken]
  | false =>
    refine iff_of_true (fun request hrequest hsome => ?_) fun hop hhop hsome => ?_
    · rw [hasked request hrequest, htoken] at hsome
      cases hsome
    · rw [hfollowed hop hhop, htoken] at hsome
      cases hsome

end Chain

/-! ## Exchanges -/

/-- What a peer has become: it was asked more, and the hops that were followed are answered with
replies that it had. -/
structure Extends (before after : Peer β) (followed : List (Hop β)) (asked : List (Request β)) :
    Prop where
  asked : after.asked = before.asked ++ asked
  link : after.link = before.link
  locate : after.locate = before.locate
  replies : ∃ taken, before.replies = taken ++ after.replies ∧
    (followed.map fun hop => Reply.respond hop.response).Sublist taken

namespace Extends

variable {peer before between after : Peer β} {followed followed' : List (Hop β)}
variable {asked asked' : List (Request β)}

theorem refl (peer : Peer β) : Extends peer peer [] [] :=
  ⟨(List.append_nil _).symm, rfl, rfl, [], rfl, List.Sublist.refl _⟩

theorem trans (h : Extends before between followed asked)
    (h' : Extends between after followed' asked') :
    Extends before after (followed ++ followed') (asked ++ asked') := by
  obtain ⟨taken, htaken, hsub⟩ := h.replies
  obtain ⟨taken', htaken', hsub'⟩ := h'.replies
  refine ⟨?_, h'.link.trans h.link, h'.locate.trans h.locate, taken ++ taken', ?_, ?_⟩
  · rw [h'.asked, h.asked, List.append_assoc]
  · rw [htaken, htaken', List.append_assoc]
  · rw [List.map_append]
    exact hsub.append hsub'

end Extends

/-- A peer that can be reached is asked the request that is sent to it. -/
theorem deliver_extends {peer : Peer β} (hlink : peer.link = .working) (request : Request β) :
    Extends peer (peer.deliver request).world [] [request] := by
  obtain ⟨link, locate, replies, asked⟩ := peer
  obtain rfl : link = .working := hlink
  cases replies with
  | nil => exact ⟨rfl, rfl, rfl, [], rfl, List.nil_sublist _⟩
  | cons reply replies =>
    cases reply with
    | respond response => exact ⟨rfl, rfl, rfl, [.respond response], rfl, List.nil_sublist _⟩
    | drop => exact ⟨rfl, rfl, rfl, [.drop], rfl, List.nil_sublist _⟩

/-- A response that asks for another request is a reply of the peer. -/
theorem deliver_followed {peer : Peer β} {request next : Request β} {response : Response}
    (h : (peer.deliver request).result = .ok response)
    (hnext : redirected peer.locate request response = .ok (some next)) :
    Extends peer (peer.deliver request).world [⟨request, response⟩] [request] := by
  obtain ⟨hworld, hreplies | ⟨-, rfl⟩⟩ := deliver_ok h
  · rw [hworld]
    exact ⟨rfl, rfl, rfl, [.respond response], hreplies, List.Sublist.refl _⟩
  · rw [redirected_exhausted] at hnext
    cases hnext

/-- **An exchange is a chain**, whatever comes of it. -/
theorem follow_chain : ∀ (left : Nat) (request : Request β) {peer : Peer β},
    peer.link = .working → ∃ followed asked, Chain peer.locate request followed asked ∧
      Extends peer (follow left request peer).world followed asked := by
  intro left request peer hlink
  have h := deliver_extends hlink request
  rw [follow_eq]
  cases hd : (peer.deliver request).result with
  | error failure =>
    rw [Attempt.world_andThen_of_error hd]
    exact ⟨[], _, .stop request, h⟩
  | ok response =>
    rw [Attempt.world_andThen_of_ok hd, h.locate]
    rcases hnext : redirected peer.locate request response with failure | (_ | next)
    · exact ⟨[], _, .stop request, h⟩
    · exact ⟨[], _, .stop request, h⟩
    · cases left with
      | zero => exact ⟨[], _, .stop request, h⟩
      | succ left =>
        simp only
        cases isSendable next.url with
        | false => exact ⟨[], _, .stop request, h⟩
        | true =>
          obtain ⟨followed, asked, hchain, hrest⟩ := follow_chain left next (h.link.trans hlink)
          rw [h.locate] at hchain
          exact ⟨_, _, .follow hnext hchain, (deliver_followed hd hnext).trans hrest⟩

/-- A request with what came of it. -/
structure Sent (β : Type) (locate : Locate) where
  first : Request β
  followed : List (Hop β)
  asked : List (Request β)
  chain : Chain locate first followed asked

/-- A peer that cannot be reached is not asked anything. -/
theorem deliver_unreachable (request : Request β) {peer : Peer β}
    (hlink : peer.link = .unreachable) :
    (∃ failure, (peer.deliver request).result = .error failure) ∧
      (peer.deliver request).world = peer := by
  unfold Peer.deliver
  rw [hlink]
  exact ⟨⟨_, rfl⟩, rfl⟩

theorem follow_unreachable {left : Nat} {request : Request β} {peer : Peer β}
    (hlink : peer.link = .unreachable) : (follow left request peer).world = peer := by
  obtain ⟨⟨failure, hfailed⟩, hworld⟩ := deliver_unreachable request hlink
  rw [follow_eq, Attempt.world_andThen_of_error hfailed, hworld]

/-- **A request gets a response only from a peer that can be reached.** -/
theorem link_of_follow_ok {left : Nat} {request : Request β} {peer : Peer β}
    {response : Response} (h : (follow left request peer).result = .ok response) :
    peer.link = .working := by
  obtain ⟨first, hd, -⟩ := follow_ok h
  cases hlink : peer.link with
  | unreachable =>
    obtain ⟨⟨failure, hfailed⟩, -⟩ := deliver_unreachable request hlink
    rw [hd] at hfailed
    cases hfailed
  | working => rfl

end CredentialRelay.Http
