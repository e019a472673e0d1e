import Mathlib.Data.List.Basic
import Mathlib.Logic.Relation

/-!
# Conversations of two programs

Two programs talk over a pair of channels that keep the order of what is sent and
deliver it in pieces, at any time. What a program has sent depends on what it has
received, and grows with it. Then the order of the deliveries does not matter: where
the conversation can come to rest after some of them, it comes to rest there after all
others.
-/

namespace Foundation.Conversation

open Relation

variable {α β : Type}

/-- What each side has received. -/
structure Transcript (α β : Type) where
  toServer : List α
  toClient : List β

namespace Transcript

/-- Nothing has been delivered. -/
def empty : Transcript α β := { toServer := [], toClient := [] }

/-- The second transcript goes on from the first. -/
def GoesOn (before after : Transcript α β) : Prop :=
  before.toServer <+: after.toServer ∧ before.toClient <+: after.toClient

theorem GoesOn.antisymm {t t' : Transcript α β} (first : GoesOn t t') (second : GoesOn t' t) :
    t = t' := by
  obtain ⟨toServer, toClient⟩ := t
  obtain ⟨toServer', toClient'⟩ := t'
  obtain rfl : toServer = toServer' :=
    first.1.eq_of_length (Nat.le_antisymm first.1.length_le second.1.length_le)
  obtain rfl : toClient = toClient' :=
    first.2.eq_of_length (Nat.le_antisymm first.2.length_le second.2.length_le)
  rfl

end Transcript

open Transcript

variable (client : List β → List α) (server : List α → List β)

/-- More of what a side has sent arrives. -/
inductive Delivers : Transcript α β → Transcript α β → Prop
  | toServer {t : Transcript α β} {more : List α}
      (sent : t.toServer ++ more <+: client t.toClient) :
      Delivers t { t with toServer := t.toServer ++ more }
  | toClient {t : Transcript α β} {more : List β}
      (sent : t.toClient ++ more <+: server t.toServer) :
      Delivers t { t with toClient := t.toClient ++ more }

/-- Transcripts that deliveries lead to. -/
def Reached (t : Transcript α β) : Prop := ReflTransGen (Delivers client server) empty t

/-- Everything that has been sent has arrived. -/
structure Settled (t : Transcript α β) : Prop where
  client : t.toServer = client t.toClient
  server : t.toClient = server t.toServer

/-- What is sent grows with what is received, as long as no more than this is. -/
def GrowsUpTo {γ δ : Type} (sends : List γ → List δ) (all : List γ) : Prop :=
  ∀ ⦃received more⦄, received <+: more → more <+: all → sends received <+: sends more

variable {client server}

theorem GrowsUpTo.mono {γ δ : Type} {sends : List γ → List δ} {all fewer : List γ}
    (grows : GrowsUpTo sends all) (part : fewer <+: all) : GrowsUpTo sends fewer :=
  fun _ _ received more => grows received (more.trans part)

section Settling

variable {final t t' : Transcript α β} (settled : Settled client server final)
  (clientGrows : GrowsUpTo client final.toClient) (serverGrows : GrowsUpTo server final.toServer)

include settled clientGrows serverGrows

/-- A delivery stays within a transcript in which everything has arrived. -/
theorem Delivers.within (delivers : Delivers client server t t') (within : GoesOn t final) :
    GoesOn t' final := by
  cases delivers with
  | toServer sent =>
      refine ⟨sent.trans ?_, within.2⟩
      rw [settled.client]
      exact clientGrows within.2 List.prefix_rfl
  | toClient sent =>
      refine ⟨within.1, sent.trans ?_⟩
      rw [settled.server]
      exact serverGrows within.1 List.prefix_rfl

theorem Reached.within (reached : Reached client server t) : GoesOn t final := by
  induction reached with
  | refl => exact ⟨List.nil_prefix, List.nil_prefix⟩
  | tail _ delivers ih => exact delivers.within settled clientGrows serverGrows ih

/-- What has been received has been sent. -/
theorem Reached.received (reached : Reached client server t) :
    t.toServer <+: client t.toClient ∧ t.toClient <+: server t.toServer := by
  induction reached with
  | refl => exact ⟨List.nil_prefix, List.nil_prefix⟩
  | @tail t t' earlier delivers ih =>
      obtain ⟨fromClient, fromServer⟩ := ih
      have within := Reached.within settled clientGrows serverGrows (earlier.tail delivers)
      cases delivers with
      | toServer sent =>
          exact ⟨sent, fromServer.trans (serverGrows (List.prefix_append _ _) within.1)⟩
      | toClient sent =>
          exact ⟨fromClient.trans (clientGrows (List.prefix_append _ _) within.2), sent⟩

/-- A conversation that has come to rest has come to the same end. -/
theorem Settled.unique (reached : Reached client server final) (other : Settled client server t)
    (reached' : Reached client server t) : t = final := by
  have within := reached'.within settled clientGrows serverGrows
  exact within.antisymm
    (reached.within other (clientGrows.mono within.2) (serverGrows.mono within.1))

/-- **The order of the deliveries does not matter.** From every transcript that
deliveries lead to, further ones lead to the transcript in which everything has
arrived. -/
theorem Reached.settles (reached : Reached client server final)
    (reached' : Reached client server t) : ReflTransGen (Delivers client server) t final := by
  generalize missing : final.toServer.length + final.toClient.length -
    (t.toServer.length + t.toClient.length) = n
  induction n using Nat.strongRecOn generalizing t with
  | ind n ih =>
      subst missing
      have within := reached'.within settled clientGrows serverGrows
      obtain ⟨⟨more, fromClient⟩, more', fromServer⟩ :=
        reached'.received settled clientGrows serverGrows
      have closer {t' : Transcript α β} (delivers : Delivers client server t t')
          (longer : t.toServer.length + t.toClient.length <
            t'.toServer.length + t'.toClient.length) :
          ReflTransGen (Delivers client server) t final := by
        have next : Reached client server t' := reached'.tail delivers
        have bound := next.within settled clientGrows serverGrows
        have short := bound.1.length_le
        have short' := bound.2.length_le
        exact .head delivers (ih _ (by omega) next rfl)
      by_cases arrived : more = []
      · by_cases arrived' : more' = []
        · subst arrived arrived'
          rw [List.append_nil] at fromClient fromServer
          rw [settled.unique clientGrows serverGrows reached ⟨fromClient, fromServer⟩ reached']
        · have delivers : Delivers client server t { t with toClient := t.toClient ++ more' } :=
            .toClient (fromServer ▸ List.prefix_rfl)
          refine closer delivers ?_
          have positive := List.length_pos_of_ne_nil arrived'
          dsimp only
          rw [List.length_append]
          omega
      · have delivers : Delivers client server t { t with toServer := t.toServer ++ more } :=
          .toServer (fromClient ▸ List.prefix_rfl)
        refine closer delivers ?_
        have positive := List.length_pos_of_ne_nil arrived
        dsimp only
        rw [List.length_append]
        omega

end Settling

/-- Everything that is on its way to the server arrives at once. -/
theorem Reached.serverHears {t : Transcript α β} (reached : Reached client server t)
    {sent : List α} (sends : client t.toClient = sent) (received : t.toServer <+: sent) :
    Reached client server { t with toServer := sent } := by
  obtain ⟨more, rfl⟩ := received
  exact reached.tail (.toServer (sends ▸ List.prefix_rfl))

/-- Everything that is on its way to the client arrives at once. -/
theorem Reached.clientHears {t : Transcript α β} (reached : Reached client server t)
    {sent : List β} (sends : server t.toServer = sent) (received : t.toClient <+: sent) :
    Reached client server { t with toClient := sent } := by
  obtain ⟨more, rfl⟩ := received
  exact reached.tail (.toClient (sends ▸ List.prefix_rfl))

end Foundation.Conversation
