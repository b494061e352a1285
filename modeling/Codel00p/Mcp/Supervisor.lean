import Codel00p.Mcp.Exchange
import Mathlib.Data.List.Infix

/-! The supervisor of subscriptions: it connects to a server again until the attempts are used up. -/

namespace Codel00p.Mcp

inductive McpSubscriptionEvent where
  | connected (serverId : String) (attempt : Nat)
  | subscribed (uri : String)
  | notification (notification : McpClientNotification)
  | reconnecting (serverId : String) (attempt : Nat) (error : String)

/-- How often a server is connected to, at least once. -/
structure McpReconnectPolicy where
  maxAttempts : Nat
  positive : 1 ≤ maxAttempts

/-- What the calls of a client come to, each of which may fail, over the states of the clients. -/
structure ServerBehaviour (σ : Type) where
  serverId : String
  spawn : (attempt : Nat) → Except McpError σ
  handshake : σ → Except McpError σ
  subscribeResource : String → σ → Except McpError σ
  readNotification : σ → Except McpError (McpClientNotification × σ)

section

variable {σ : Type} (server : ServerBehaviour σ)

def subscribeAll : List String → σ → List McpSubscriptionEvent × Except McpError σ
  | [], client => ([], .ok client)
  | uri :: uris, client =>
    match server.subscribeResource uri client with
    | .error error => ([], .error error)
    | .ok client =>
      let (events, result) := subscribeAll uris client
      (.subscribed uri :: events, result)

/-- Read notifications until a read fails; an attempt that has not failed after some reads goes on. -/
def readNotifications : (reads : Nat) → σ → List McpClientNotification × Option McpError
  | 0, _ => ([], none)
  | reads + 1, client =>
    match server.readNotification client with
    | .error error => ([], some error)
    | .ok (notification, client) =>
      let (notifications, result) := readNotifications reads client
      (notification :: notifications, result)

variable (subscriptions : List String) (reads : Nat → Nat)

/-- The events of an attempt, and the error that ends it unless it goes on. -/
def runStdioNotificationAttempt (attempt : Nat) : List McpSubscriptionEvent × Option McpError :=
  match (server.spawn attempt).bind server.handshake with
  | .error error => ([], some error)
  | .ok client =>
    let (events, result) := subscribeAll server subscriptions client
    let events := .connected server.serverId attempt :: events
    match result with
    | .error error => (events, some error)
    | .ok client =>
      let (notifications, result) := readNotifications server (reads attempt) client
      (events ++ notifications.map .notification, result)

variable (policy : McpReconnectPolicy) (describe : McpError → String)

/-- What is sent from an attempt on; there are as many turns left as attempts. -/
def superviseFrom : (left : Nat) → (attempt : Nat) → List (Except McpError McpSubscriptionEvent)
  | 0, _ => []
  | left + 1, attempt =>
    let (events, result) := runStdioNotificationAttempt server subscriptions reads attempt
    events.map .ok ++ match result with
      | none => []
      | some error =>
        if policy.maxAttempts ≤ attempt then [.error error]
        else .ok (.reconnecting server.serverId (attempt + 1) (describe error)) :: superviseFrom left (attempt + 1)

def runStdioNotificationSupervisor : List (Except McpError McpSubscriptionEvent) :=
  superviseFrom server subscriptions reads policy describe policy.maxAttempts 1

/-- The events of one attempt: a front of the connection, the subscriptions in order, and what is read one after the
other. -/
def IsBlock (attempt : Nat) (events : List McpSubscriptionEvent) : Prop :=
  events = [] ∨ ∃ client, events <+: .connected server.serverId attempt :: subscriptions.map .subscribed ++
    (readNotifications server (reads attempt) client).1.map .notification

/-- Attempts from a number on, up to the largest: each but the last is followed by a reconnection with the next number,
and the last by one error, unless it goes on. -/
inductive Trace : (attempt : Nat) → List (Except McpError McpSubscriptionEvent) → Prop
  | goesOn {attempt : Nat} {events : List McpSubscriptionEvent} (within : attempt ≤ policy.maxAttempts)
      (block : IsBlock server subscriptions reads attempt events) : Trace attempt (events.map .ok)
  | fails {events : List McpSubscriptionEvent} (error : McpError)
      (block : IsBlock server subscriptions reads policy.maxAttempts events) :
      Trace policy.maxAttempts (events.map .ok ++ [.error error])
  | reconnects {attempt : Nat} {events : List McpSubscriptionEvent} {rest : List (Except McpError McpSubscriptionEvent)}
      (more : attempt < policy.maxAttempts) (error : McpError)
      (block : IsBlock server subscriptions reads attempt events) (next : Trace (attempt + 1) rest) :
      Trace attempt (events.map .ok ++ .ok (.reconnecting server.serverId (attempt + 1) (describe error)) :: rest)

theorem subscribeAll_front (uris : List String) (client : σ) :
    (subscribeAll server uris client).1 <+: uris.map .subscribed ∧
      ∀ reached, (subscribeAll server uris client).2 = .ok reached →
        (subscribeAll server uris client).1 = uris.map .subscribed := by
  induction uris generalizing client with
  | nil => exact ⟨List.prefix_rfl, fun _ _ => rfl⟩
  | cons uri uris ih =>
    rw [subscribeAll]
    cases server.subscribeResource uri client with
    | error error => exact ⟨List.nil_prefix, nofun⟩
    | ok next =>
      obtain ⟨front, whole⟩ := ih next
      refine ⟨(List.prefix_cons_inj _).2 front, fun reached ended => ?_⟩
      rw [List.map_cons, ← whole reached ended]

theorem attempt_block (attempt : Nat) : IsBlock server subscriptions reads attempt
    (runStdioNotificationAttempt server subscriptions reads attempt).1 := by
  unfold runStdioNotificationAttempt
  cases (server.spawn attempt).bind server.handshake with
  | error error => exact .inl rfl
  | ok client =>
    obtain ⟨front, whole⟩ := subscribeAll_front server subscriptions client
    dsimp only
    cases ended : (subscribeAll server subscriptions client).2 with
    | error error => exact .inr ⟨client, (List.prefix_cons_inj _).2 (front.trans (List.prefix_append _ _))⟩
    | ok reached =>
      refine .inr ⟨reached, ?_⟩
      rw [whole reached ended]

theorem superviseFrom_trace (left attempt : Nat) (turns : attempt + left = policy.maxAttempts + 1)
    (some : 0 < left) : Trace server subscriptions reads policy describe attempt
      (superviseFrom server subscriptions reads policy describe left attempt) := by
  induction left generalizing attempt with
  | zero => exact absurd some (Nat.lt_irrefl 0)
  | succ left ih =>
    have block := attempt_block server subscriptions reads attempt
    rw [superviseFrom]
    generalize runStdioNotificationAttempt server subscriptions reads attempt = outcome at block ⊢
    obtain ⟨events, result⟩ := outcome
    cases result with
    | none =>
      dsimp only
      rw [List.append_nil]
      exact .goesOn (by omega) block
    | some error =>
      dsimp only
      split
      · next last =>
        obtain rfl : attempt = policy.maxAttempts := by omega
        exact .fails error block
      · next early => exact .reconnects (by omega) error block (ih (attempt + 1) (by omega) (by omega))

end

end Codel00p.Mcp
