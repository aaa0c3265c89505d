import CommunitySearch.Api.Gossip
import CommunitySearch.Foundation.Machine

/-!
# One engine among its gossip tasks

The discovered engines of one engine, with everything that reads and writes them: exchanges this
engine asks for, any number at a time, exchanges its peers ask for, and the admin endpoints of
discovered engines. A step is a locked section of the database, or what happens to a task between
two of them:

* `ask` — an exchange is begun: the table is listed under the lock, and the list is sent;
* `hear` — the HTTP exchange ends: an acceptable answer is stamped with the clock and waits for the
  lock, anything else ends the task;
* `call` — a request of a peer arrives: it is refused, or stamped with the clock, and waits;
* `merge` — a task that waits gets the lock, merges its payload with its list and writes the result
  back. A call lists the table now, and the list is its answer; an exchange of our own takes the
  list it has sent.

`GossipNode.Change` says what each step does, so that no later proof opens the machine.
-/

namespace CommunitySearch

open Gossip

/-- A payload that has been received and waits for the lock. -/
structure Received where
  /-- The list an exchange of our own has sent; `none` for a call of a peer. -/
  snapshot : Option (List DiscoveredEngine)
  engines : List EngineSummary
  now : Int

/-- The list a payload is merged with. -/
def Received.base (x : Received) (t : DiscoveredEngines) : List DiscoveredEngine :=
  x.snapshot.getD t.list

/-- A task between two locked sections. -/
inductive GossipTask where
  | asked (snapshot : List DiscoveredEngine)
  | received (x : Received)

/-- The payload of a task that waits for the lock. -/
def GossipTask.waiting : GossipTask → Option Received
  | .asked _ => none
  | .received x => some x

/-- The tables and the tasks in progress. -/
structure GossipNode where
  table : DiscoveredEngines
  nodePeers : Table NodePeerRow.Clash
  clock : Int
  tasks : KeyTable (Prod.fst : ℕ × GossipTask → ℕ)

/-- What can happen; `k` numbers the task. -/
inductive GossipLabel where
  | tick (d : ℕ)
  | ask (k : ℕ)
  | hear (k : ℕ) (a : PeerAnswer)
  | call (k : ℕ) (req : ExchangeRequest)
  | merge (k : ℕ)
  /-- `DELETE /api/admin/discovered`. -/
  | remove (url : String)
  /-- `POST /api/admin/discovered/promote`. -/
  | promote (url : String)

/-- The payload that comes in with a step. -/
def GossipLabel.incoming : GossipLabel → List EngineSummary
  | .hear _ (.response body) => body.engines
  | .call _ req => req.engines
  | _ => []

namespace GossipNode

/-- The task `k`. -/
def task (s : GossipNode) (k : ℕ) : Option GossipTask := (KeyTable.find s.tasks k).map Prod.snd

/-- The payload of the task `k`, when it waits for the lock. -/
def waiting (s : GossipNode) (k : ℕ) : Option Received := (s.task k).bind GossipTask.waiting

def setTask (s : GossipNode) (k : ℕ) (x : GossipTask) : GossipNode :=
  { s with tasks := KeyTable.put s.tasks (k, x) }

def endTask (s : GossipNode) (k : ℕ) : GossipNode :=
  { s with tasks := KeyTable.erase s.tasks k }

/-- The table after the payload `x` has been merged. -/
def mergeReceived (s : GossipNode) (x : Received) : DiscoveredEngines :=
  mergeInto (x.base s.table) x.engines x.now s.table

/-- The engine configured by `cfg`. -/
def machine (X : Crates) (cfg : SelfConfig) : Machine GossipNode GossipLabel where
  step s
    | .tick d => some { s with clock := s.clock + d }
    | .ask k =>
      match s.task k with
      | none => some (s.setTask k (.asked s.table.list))
      | some _ => none
    | .hear k a =>
      match s.task k with
      | some (.asked snapshot) =>
        match readAnswer X PROTOCOL_VERSION a with
        | .ok body => some (s.setTask k (.received ⟨some snapshot, body.engines, s.clock⟩))
        | .error _ => some (s.endTask k)
      | _ => none
    | .call k req =>
      match s.task k with
      | none =>
        match checkRequest X PROTOCOL_VERSION req with
        | .ok _ => some (s.setTask k (.received ⟨none, req.engines, s.clock⟩))
        | .error _ => some s
      | some _ => none
    | .merge k =>
      match s.waiting k with
      | some x => some { s.endTask k with table := s.mergeReceived x }
      | none => none
    | .remove url =>
      match removeDiscovered cfg s.table url with
      | .ok (t, _) => some { s with table := t }
      | .error _ => some s
    | .promote url =>
      match promoteDiscovered s.table s.nodePeers url with
      | .ok peers => some { s with nodePeers := peers }
      | .error _ => some s

/-- The payload a step sends to a peer: that of an exchange of our own, or the answer to a call. -/
def outgoing (s : GossipNode) : GossipLabel → Option (List EngineSummary)
  | .ask _ => some (payload s.table)
  | .merge k =>
    (s.waiting k).bind fun x ↦ if x.snapshot.isNone then some (payload s.table) else none
  | _ => none

/-- **What a step does.** -/
inductive Change (cfg : SelfConfig) (s : GossipNode) : GossipLabel → GossipNode → Prop
  | tick (d : ℕ) : Change cfg s (.tick d) { s with clock := s.clock + d }
  | ask (k : ℕ) : Change cfg s (.ask k) (s.setTask k (.asked s.table.list))
  | hear {k : ℕ} {snapshot : List DiscoveredEngine} (body : ExchangeResponse)
    (hk : s.task k = some (.asked snapshot)) :
    Change cfg s (.hear k (.response body))
      (s.setTask k (.received ⟨some snapshot, body.engines, s.clock⟩))
  | giveUp (k : ℕ) (a : PeerAnswer) : Change cfg s (.hear k a) (s.endTask k)
  | call (k : ℕ) (req : ExchangeRequest) :
    Change cfg s (.call k req) (s.setTask k (.received ⟨none, req.engines, s.clock⟩))
  | merge {k : ℕ} {x : Received} (hk : s.waiting k = some x) :
    Change cfg s (.merge k) { s.endTask k with table := s.mergeReceived x }
  | remove {url : String} {t : DiscoveredEngines} {n : ℕ}
    (h : removeDiscovered cfg s.table url = .ok (t, n)) :
    Change cfg s (.remove url) { s with table := t }
  | promote (url : String) (peers : Table NodePeerRow.Clash) :
    Change cfg s (.promote url) { s with nodePeers := peers }
  /-- The request is refused. -/
  | refuse {l : GossipLabel} (hl : ∀ k, l ≠ .merge k) : Change cfg s l s

variable {X : Crates} {cfg : SelfConfig} {s s' : GossipNode} {l : GossipLabel}

theorem change_of_step (h : (machine X cfg).step s l = some s') : Change cfg s l s' := by
  rcases l with d | k | ⟨k, a⟩ | ⟨k, req⟩ | k | url | url <;> rw [machine] at h <;> dsimp only at h
  · obtain rfl := Option.some.inj h
    exact .tick d
  · split at h
    · obtain rfl := Option.some.inj h
      exact .ask k
    · cases h
  · split at h
    case h_1 snapshot hk =>
      generalize hr : readAnswer X PROTOCOL_VERSION a = r at h
      rcases r with error | body
      · obtain rfl := Option.some.inj h
        exact .giveUp k a
      · obtain rfl := eq_response_of_readAnswer hr
        obtain rfl := Option.some.inj h
        exact .hear body hk
    · cases h
  · split at h
    · generalize checkRequest X PROTOCOL_VERSION req = r at h
      rcases r with error | ⟨⟩
      · obtain rfl := Option.some.inj h
        exact .refuse fun k h ↦ by cases h
      · obtain rfl := Option.some.inj h
        exact .call k req
    · cases h
  · split at h
    case h_1 x hk =>
      obtain rfl := Option.some.inj h
      exact .merge hk
    · cases h
  · generalize hr : removeDiscovered cfg s.table url = r at h
    rcases r with error | ⟨t, n⟩
    · obtain rfl := Option.some.inj h
      exact .refuse fun k h ↦ by cases h
    · obtain rfl := Option.some.inj h
      exact .remove hr
  · generalize promoteDiscovered s.table s.nodePeers url = r at h
    rcases r with error | peers
    · obtain rfl := Option.some.inj h
      exact .refuse fun k h ↦ by cases h
    · obtain rfl := Option.some.inj h
      exact .promote url peers

theorem task_setTask (s : GossipNode) (k k' : ℕ) (x : GossipTask) :
    (s.setTask k x).task k' = if k = k' then some x else s.task k' := by
  rw [task, setTask, KeyTable.find_put]
  split
  · rfl
  · rfl

theorem task_endTask (s : GossipNode) (k k' : ℕ) :
    (s.endTask k).task k' = if k = k' then none else s.task k' := by
  rw [task, endTask, KeyTable.find_erase]
  split
  · rfl
  · rfl

theorem waiting_eq_some {k : ℕ} {x : Received} :
    s.waiting k = some x ↔ s.task k = some (.received x) := by
  rw [waiting, Option.bind_eq_some_iff]
  constructor
  · rintro ⟨y, hy, hx⟩
    rcases y with snapshot | y
    · cases hx
    · rw [hy, Option.some.inj hx]
  · intro h
    exact ⟨_, h, rfl⟩

/-- The task a step may begin or take on. -/
inductive NewTask (s : GossipNode) (l : GossipLabel) : GossipTask → Prop
  | asked : NewTask s l (.asked s.table.list)
  | heard {k : ℕ} {snapshot : List DiscoveredEngine} (hk : s.task k = some (.asked snapshot)) :
    NewTask s l (.received ⟨some snapshot, l.incoming, s.clock⟩)
  | called : NewTask s l (.received ⟨none, l.incoming, s.clock⟩)

/-- **What a step does to the tasks**: a task after it was there before, or is new. -/
theorem task_of_change (h : Change cfg s l s') {k : ℕ} {a : GossipTask}
    (ha : s'.task k = some a) : s.task k = some a ∨ NewTask s l a := by
  have hset : ∀ {k' : ℕ} {y : GossipTask}, NewTask s l y → (s.setTask k' y).task k = some a →
      s.task k = some a ∨ NewTask s l a := by
    intro k' y hy hya
    rw [task_setTask] at hya
    split at hya
    · rw [← Option.some.inj hya]
      exact Or.inr hy
    · exact Or.inl hya
  have hend : ∀ {k' : ℕ}, (s.endTask k').task k = some a → s.task k = some a := by
    intro k' hya
    rw [task_endTask] at hya
    split at hya
    · cases hya
    · exact hya
  cases h with
  | tick => exact Or.inl ha
  | ask => exact hset .asked ha
  | hear body hk => exact hset (.heard hk) ha
  | giveUp => exact Or.inl (hend ha)
  | call => exact hset .called ha
  | merge => exact Or.inl (hend ha)
  | remove => exact Or.inl ha
  | promote => exact Or.inl ha
  | refuse => exact Or.inl ha

/-- A payload that waits after a step waited before or has come in with it. -/
theorem waiting_of_change (h : Change cfg s l s') {k : ℕ} {x : Received}
    (hx : s'.waiting k = some x) : s.waiting k = some x ∨ x.engines = l.incoming := by
  rw [waiting_eq_some] at hx ⊢
  refine (task_of_change h hx).imp_right fun hnew ↦ ?_
  cases hnew with
  | heard => rfl
  | called => rfl

/-- What a step does to the table. -/
inductive TableChange (cfg : SelfConfig) (s : GossipNode) :
    GossipLabel → DiscoveredEngines → Prop
  | same {l : GossipLabel} (hl : ∀ k, l ≠ .merge k) : TableChange cfg s l s.table
  | merge {k : ℕ} {x : Received} (hk : s.waiting k = some x) :
    TableChange cfg s (.merge k) (s.mergeReceived x)
  | remove {url : String} {t : DiscoveredEngines} {n : ℕ}
    (h : removeDiscovered cfg s.table url = .ok (t, n)) : TableChange cfg s (.remove url) t

/-- **What a step does to the table**: a merge, a removal, or nothing. -/
theorem table_of_change (h : Change cfg s l s') : TableChange cfg s l s'.table := by
  cases h with
  | merge hk => exact .merge hk
  | remove h => exact .remove h
  | refuse hl => exact .same hl
  | _ => exact .same fun k h ↦ by cases h

theorem clock_le_of_change (h : Change cfg s l s') : s.clock ≤ s'.clock := by
  cases h with
  | tick d =>
    show s.clock ≤ s.clock + d
    omega
  | _ => exact le_rfl

/-- **What is stored after a merge**, URL by URL. -/
theorem get_mergeReceived (s : GossipNode) (x : Received) (url : String) :
    (s.mergeReceived x).get url =
      match mergedRow (x.base s.table) x.engines x.now url with
      | none => s.table.get url
      | some r => some (DiscoveredEngines.onConflict (s.table.get url) r) :=
  get_mergeInto

end GossipNode

end CommunitySearch
