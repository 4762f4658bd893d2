import ToolPipeline.Proofs.Server.SoundConnection
import ToolPipeline.Server.Traffic

/-! What one action makes of the traffic of a server: which runs there are, which tokens are given
out and cancelled, and how far it takes a run. -/

namespace ToolPipeline

/-- What has a token of its own, right below the root. -/
inductive Owner where
  | connection (i : Nat)
  | request (n : Nat)

inductive RunName where
  | frame (connection task : Nat)
  | request (n : Nat)

namespace RunName

def owner : RunName → Owner
  | .frame i _ => .connection i
  | .request n => .request n

/-- The way from the token of the owner to that of the run. -/
def branch : RunName → Token
  | .frame _ k => [k]
  | .request _ => []

def limit (config : ServerConfig) : RunName → Option UInt64
  | .frame _ _ => config.frameTimeout
  | .request _ => config.restTimeout

end RunName

def TrafficAction.cancels? : TrafficAction → Option Owner
  | .act i a => if a.closes then some (.connection i) else none
  | .drop n => some (.request n)
  | _ => none

/-- The job of the run of a task and the progress of its worker, if it has one. -/
def Connection.run? (c : Connection) (k : Nat) : Option (Job × Option Progress) :=
  (c.tasks[k]?).map fun t => (t.job, t.worker)

namespace Traffic

def token? (t : Traffic) : Owner → Option Token
  | .connection i => (t.connections[i]?).map Connection.token
  | .request n => (t.requests[n]?).map fun r => Token.root.child r.number

def run? (t : Traffic) : RunName → Option (Job × Option Progress)
  | .frame i k => (t.connections[i]?).bind (Connection.run? · k)
  | .request n => (t.requests[n]?).map fun r => (r.job, some r.worker)

/-- What is given a token by an action, if it is not refused. -/
def opens? (t : Traffic) : TrafficAction → Option Owner
  | .connect => some (.connection t.connections.length)
  | .post _ => some (.request t.requests.length)
  | _ => none

inductive Move (server : Server) (t : Traffic) : TrafficAction → Traffic → Prop where
  | notOpened : Move server t .connect { t with issued := t.issued + 1 }
  | opened {slots : Nat} :
    Connection.opened server.config t.nextToken = .ok (.start t.nextToken slots) →
    Move server t .connect
      { t with
        issued := t.issued + 1
        connections := t.connections ++ [.start t.nextToken slots] }
  | acted {i offered : Nat} {a : ConnectionAction} {c d : Connection} {v : World} :
    t.connections[i]? = some c → c.step? server t.offered t.world a = some (d, v) →
    Move server t (.act i a)
      { t with world := v, connections := t.connections.set i d, offered }
  | refused {r : Http.Request} : Move server t (.post r) t
  | posted {r : Http.Request} (request : Request) :
    Move server t (.post r)
      { t with
        issued := t.issued + 1
        requests := t.requests ++
          [.start server.config t.nextToken t.issued t.world.now request] }
  | worked {i offered : Nat} {r : RestRun} {q : Progress} {v : World} :
    t.requests[i]? = some r →
    r.worker.step? server.engine r.job t.offered t.world = some (q, v) →
    Move server t (.work i)
      { t with world := v, requests := t.requests.set i { r with worker := q }, offered }
  | answered {i : Nat} {r : RestRun} (response : Http.Response) : t.requests[i]? = some r →
    r.handler = .waiting →
    Move server t (.answer i)
      { t with requests := t.requests.set i { r with handler := .answered response } }
  | dropped {i : Nat} {r : RestRun} : t.requests[i]? = some r → r.handler = .waiting →
    Move server t (.drop i)
      { t with
        requests := t.requests.set i { r with handler := .dropped }
        world.fired := r.job.options.cancel.toList ++ t.world.fired }
  | shutDown : Move server t .shutdown t.shutdown
  | ticked (ms : Nat) : Move server t (.tick ms) (t.tick ms)

end Traffic

/-- The tools of the plugin cancel nothing, unless they shut everything down. -/
def Plugin.SparesTokens (p : Plugin) : Prop :=
  ∀ tool occasion input, ∀ f ∈ (p.call tool occasion input).cancels, f = Token.root

def Registry.SparesTokens (r : Registry) : Prop :=
  ∀ id p, r.lookup id = some p → p.SparesTokens

theorem Registry.Steady.sparesTokens {r : Registry} (h : r.Steady) : r.SparesTokens := by
  intro id p hp tool occasion input f hf
  simp [(h id p hp).cancels_eq tool occasion input] at hf

def Progress.SparesTokens : Progress → Prop
  | .between p _ _ => p.SparesTokens
  | .inside p _ _ _ call => p.SparesTokens ∧ ∀ f ∈ call.cancels, f = Token.root
  | .fresh | .over _ => True

/-- From one world to the other nothing has been cancelled but the token `own`, if there is one, and
perhaps the root. -/
structure World.Fires (w v : World) (own : Option Token) : Prop where
  due : v.due = w.due
  kept : ∀ f ∈ w.fired, f ∈ v.fired
  fired : ∀ f ∈ v.fired, f ∈ w.fired ∨ f = Token.root ∨ own = some f

theorem World.Fires.refl (w : World) : w.Fires w none :=
  ⟨rfl, fun _ h => h, fun _ h => .inl h⟩

theorem World.fires_fire (w : World) (t : Token) :
    w.Fires { w with fired := t :: w.fired } (some t) where
  due := rfl
  kept f h := List.mem_cons_of_mem t h
  fired f h := by
    rcases List.mem_cons.mp h with rfl | h
    · exact .inr (.inr rfl)
    · exact .inl h

theorem Progress.SparesTokens.step {e : Engine} {j : Job} {offered : Nat} {w v : World}
    {p q : Progress} (he : e.registry.SparesTokens) (hp : p.SparesTokens)
    (h : p.step? e j offered w = some (q, v)) : q.SparesTokens ∧ w.Fires v none := by
  cases p with
  | «over» ended => cases h
  | fresh =>
    obtain ⟨rfl, rfl⟩ := Prod.mk.inj (Option.some.inj h)
    refine ⟨?_, .refl _⟩
    unfold begin
    dsimp only
    split
    · trivial
    · next plugin hv => exact he _ plugin (lookup_of_validate hv)
  | between plugin rest r =>
    obtain ⟨rfl, rfl⟩ := Prod.mk.inj (Option.some.inj h)
    refine ⟨?_, .refl _⟩
    cases rest with
    | nil => trivial
    | cons tool rest =>
      unfold enter
      dsimp only
      split
      · trivial
      · exact ⟨hp, hp _ _ _⟩
  | inside plugin tool rest r call =>
    obtain ⟨rfl, rfl⟩ := Prod.mk.inj (Option.some.inj h)
    refine ⟨?_, rfl, fun f hf => List.mem_append_right _ hf, fun f hf => ?_⟩
    · unfold leave
      split
      · trivial
      · exact hp.1
    · rcases List.mem_append.mp hf with hf | hf
      · exact .inr (.inl (hp.2 f hf))
      · exact .inl hf

section
variable {server : Server} {t u : Traffic} {a : TrafficAction}

namespace Traffic

theorem move_of_step (h : t.step? server a = some u) : t.Move server a u := by
  cases a with
  | connect =>
    obtain rfl := Option.some.inj h
    unfold connect
    cases ho : Connection.opened server.config t.nextToken with
    | error p =>
      simp only [Except.toOption, Option.toList_none, List.append_nil]
      exact .notOpened
    | ok c =>
      obtain rfl := Connection.opened_eq_ok ho
      exact .opened ho
  | act i a =>
    simp only [step?, act, bind, Option.bind_eq_some_iff, pure, Option.some.injEq] at h
    obtain ⟨c, hc, ⟨d, v⟩, hd, rfl⟩ := h
    exact .acted hc hd
  | post r =>
    obtain rfl := Option.some.inj h
    unfold post
    split
    · exact .refused
    · next request hr => exact .posted request
  | work i =>
    simp only [step?, work, bind, Option.bind_eq_some_iff, pure, Option.some.injEq] at h
    obtain ⟨r, hr, ⟨q, v⟩, hq, rfl⟩ := h
    exact .worked hr hq
  | answer i =>
    simp only [step?, answer, Option.map_eq_some_iff, Option.bind_eq_some_iff] at h
    obtain ⟨r', ⟨r, hr, ha⟩, rfl⟩ := h
    unfold RestRun.answer at ha
    split at ha
    · next ended hw he =>
      obtain rfl := Option.some.inj ha
      exact .answered _ hr hw
    · cases ha
  | drop i =>
    simp only [step?, drop, bind, Option.bind_eq_some_iff, pure, Option.some.injEq] at h
    obtain ⟨r, hr, r', hd, rfl⟩ := h
    unfold RestRun.drop at hd
    split at hd
    · next hw =>
      obtain rfl := Option.some.inj hd
      exact @Move.dropped server t i r hr hw
    · cases hd
  | shutdown =>
    obtain rfl := Option.some.inj h
    exact .shutDown
  | tick ms =>
    obtain rfl := Option.some.inj h
    exact .ticked ms

end Traffic

def Connection.SparesTokens (c : Connection) : Prop :=
  ∀ (i : Nat) (t : FrameTask), c.tasks[i]? = some t → ∀ p, t.worker = some p → p.SparesTokens

theorem FrameTask.Move.fires {c : Connection} {x y : FrameTask} {offered free : Nat} {w v : World}
    {queue : List Outbound} (h : x.Move server offered w c y v free queue)
    (he : server.engine.registry.SparesTokens)
    (hx : ∀ p, x.worker = some p → p.SparesTokens) :
    (∀ p, y.worker = some p → p.SparesTokens) ∧ w.Fires v none := by
  cases h with
  | acquired => exact ⟨fun p hp => Option.some.inj hp ▸ trivial, .refl _⟩
  | worked hp hs =>
    obtain ⟨hq, hf⟩ := (hx _ hp).step he hs
    exact ⟨fun p hp => Option.some.inj hp ▸ hq, hf⟩
  | gaveUp | released | replyQueued | replyDropped | aborted => exact ⟨hx, .refl _⟩

theorem ConnectionAction.closes_receive {m : Message} (h : m ≠ .close) :
    (receive m).closes = false := by
  cases m with
  | close => exact absurd rfl h
  | text | binary | ping | pong => rfl

theorem ConnectionAction.closes_receive_of_content {m : Message} {content : Option String}
    (h : m.content? = some content) : (receive m).closes = false :=
  closes_receive fun hm => by simp [hm, Message.content?] at h

theorem Connection.Move.fires {c d : Connection} {offered : Nat} {w v : World}
    {a : ConnectionAction} (h : c.Move server offered w a d v)
    (he : server.engine.registry.SparesTokens) (hc : c.SparesTokens) :
    d.SparesTokens ∧ w.Fires v (if a.closes then some c.token else none) := by
  cases h with
  | ignored _ hm =>
    rw [ConnectionAction.closes_receive hm]
    exact ⟨hc, .refl _⟩
  | closed => exact ⟨hc, World.fires_fire w c.token⟩
  | refused _ hm =>
    rw [ConnectionAction.closes_receive_of_content hm]
    exact ⟨hc, .refl _⟩
  | accepted _ hm =>
    rw [ConnectionAction.closes_receive_of_content hm]
    exact ⟨forall_getElem?_concat nofun hc, .refl _⟩
  | refusalQueued | refusalDropped | written => exact ⟨hc, .refl _⟩
  | @task a i free t u v queue ha ht hm =>
    obtain ⟨hu, hf⟩ := hm.fires he (hc i t ht)
    exact ⟨forall_getElem?_set ht hu hc, by simpa [ha] using hf⟩
  | readerStopped | writerStopped => exact ⟨hc, World.fires_fire w c.token⟩

/-- A connection is as its own actions have left it, and a run for a request has the options that
it came with. -/
structure Traffic.Sound (server : Server) (t : Traffic) : Prop where
  connections : ∀ (i : Nat) (c : Connection), t.connections[i]? = some c → c.SparesTokens ∧
    ∃ slots, Connection.opened server.config c.token = .ok (.start c.token slots) ∧
      Connection.Reachable server c.token slots c t.world
  requests : ∀ (n : Nat) (r : RestRun), t.requests[n]? = some r → r.worker.SparesTokens ∧
    ∃ arrival, r.job.options = Rest.options server.config (Token.root.child r.number) arrival

theorem Rest.cancel_options (config : ServerConfig) (token : Token) (now : Nat) :
    (options config token now).cancel = some token := by
  unfold options
  cases config.restTimeout <;> rfl

theorem Rest.deadline_options (config : ServerConfig) (token : Token) (now : Nat) :
    (options config token now).deadline = config.restTimeout.map fun ms => now + ms.toNat := by
  unfold options
  cases config.restTimeout <;> rfl

namespace Traffic

theorem Sound.start (server : Server) (w : World) : (Traffic.start w).Sound server :=
  ⟨by simp [Traffic.start], by simp [Traffic.start]⟩

theorem Move.before (h : t.Move server a u) : t.world.Before u.world := by
  cases h with
  | acted _ hd => exact (Connection.move_of_step hd).grows.world
  | worked _ hq => exact Progress.before_of_step hq
  | dropped =>
    exact World.before_of (Nat.le_refl _) (fun f hf => List.mem_append_right _ hf) rfl
  | shutDown => exact World.before_fire _ _
  | ticked ms => exact World.before_of (Nat.le_add_right _ _) (fun f hf => hf) rfl
  | notOpened | opened | refused | posted | answered => exact .refl _

theorem Move.sound (h : t.Move server a u) (he : server.engine.registry.SparesTokens)
    (hs : t.Sound server) : u.Sound server := by
  have hb := h.before
  have hconnections (i : Nat) (c : Connection) (hc : t.connections[i]? = some c) :
      c.SparesTokens ∧ ∃ slots,
        Connection.opened server.config c.token = .ok (.start c.token slots) ∧
        Connection.Reachable server c.token slots c u.world := by
    obtain ⟨hspares, slots, ho, hr⟩ := hs.connections i c hc
    exact ⟨hspares, slots, ho, hr.elapse hb⟩
  cases h with
  | notOpened | refused | shutDown | ticked => exact ⟨hconnections, hs.requests⟩
  | @opened slots ho =>
    have hspares : (Connection.start t.nextToken slots).SparesTokens := by
      simp [Connection.SparesTokens, Connection.start]
    exact ⟨forall_getElem?_concat ⟨hspares, slots, ho, .start _⟩ hconnections, hs.requests⟩
  | @acted i offered a c d v hc hd =>
    obtain ⟨hspares, slots, ho, hr⟩ := hs.connections i c hc
    have hm := Connection.move_of_step hd
    have hr' := hr.act t.offered a hd
    rw [← hm.grows.token] at ho hr'
    exact ⟨forall_getElem?_set hc ⟨(hm.fires he hspares).1, slots, ho, hr'⟩ hconnections,
      hs.requests⟩
  | posted request =>
    exact ⟨hconnections, forall_getElem?_concat ⟨trivial, t.world.now, rfl⟩ hs.requests⟩
  | @worked i offered r q v hr hq =>
    obtain ⟨hspares, ho⟩ := hs.requests i r hr
    exact ⟨hconnections, forall_getElem?_set hr ⟨(hspares.step he hq).1, ho⟩ hs.requests⟩
  | answered _ hr | dropped hr =>
    have hold := hs.requests _ _ hr
    exact ⟨hconnections, forall_getElem?_set hr hold hs.requests⟩

theorem Move.fires (h : t.Move server a u) (he : server.engine.registry.SparesTokens)
    (hs : t.Sound server) : t.world.Fires u.world (a.cancels?.bind t.token?) := by
  cases h with
  | notOpened | opened | refused | posted | answered => exact .refl _
  | ticked => exact ⟨rfl, fun _ h => h, fun _ h => .inl h⟩
  | shutDown =>
    have hf := World.fires_fire t.world Token.root
    refine ⟨rfl, hf.kept, fun f hm => ?_⟩
    rcases List.mem_cons.mp hm with rfl | hm
    · exact .inr (.inl rfl)
    · exact .inl hm
  | worked hr hq => exact ((hs.requests _ _ hr).1.step he hq).2
  | @acted i offered a c d v hc hd =>
    have hf := ((Connection.move_of_step hd).fires he (hs.connections i c hc).1).2
    cases ha : a.closes with
    | false => simpa [TrafficAction.cancels?, ha] using hf
    | true => simpa [TrafficAction.cancels?, ha, token?, hc] using hf
  | @dropped i r hr hw =>
    obtain ⟨-, arrival, ho⟩ := hs.requests i r hr
    have hf := World.fires_fire t.world (Token.root.child r.number)
    simpa [TrafficAction.cancels?, token?, hr, ho, Rest.cancel_options] using hf

theorem Move.issued_le (h : t.Move server a u) : t.issued ≤ u.issued := by
  cases h with
  | notOpened | opened | posted => exact Nat.le_succ _
  | acted | refused | worked | answered | dropped | shutDown | ticked => exact Nat.le_refl _

/-- Nobody's token changes, and the next one is given to whoever comes new. -/
theorem Move.token? (h : t.Move server a u) (o : Owner) :
    u.token? o = t.token? o ∨
      t.opens? a = some o ∧ t.token? o = none ∧ u.token? o = some t.nextToken ∧
        u.issued = t.issued + 1 := by
  cases h with
  | notOpened | refused | shutDown | ticked => exact .inl rfl
  | opened =>
    cases o with
    | request n => exact .inl rfl
    | connection i =>
      by_cases hi : i = t.connections.length
      · refine .inr ⟨by rw [opens?, hi], ?_, ?_, rfl⟩
        · simp [Traffic.token?, hi]
        · simp [Traffic.token?, hi, Connection.start]
      · refine .inl ?_
        simp [Traffic.token?, getElem?_concat, hi]
  | posted request =>
    cases o with
    | connection i => exact .inl rfl
    | request n =>
      by_cases hn : n = t.requests.length
      · refine .inr ⟨by rw [opens?, hn], ?_, ?_, rfl⟩
        · simp [Traffic.token?, hn]
        · simp [Traffic.token?, hn, RestRun.start, nextToken]
      · refine .inl ?_
        simp [Traffic.token?, getElem?_concat, hn]
  | acted hc hd =>
    have htoken := (Connection.move_of_step hd).grows.token
    cases o with
    | request n => exact .inl rfl
    | connection k => exact .inl (map_getElem?_set Connection.token hc htoken k)
  | worked hr | answered _ hr | dropped hr =>
    cases o with
    | connection k => exact .inl rfl
    | request n =>
      refine .inl (map_getElem?_set (fun r : RestRun => Token.root.child r.number) hr ?_ n)
      rfl

end Traffic

def callsOf (p : Option Progress) : List Invocation := p.elim [] fun p => p.trace.invocations

/-- A step has done nothing to a run, or it has just come, with its time limit counted from now, or
it has been taken further; no tool is called when the run has to stop. -/
inductive RunMove (w : World) (limit : Option UInt64) :
    Option (Job × Option Progress) → Option (Job × Option Progress) → Prop where
  | same {s : Option (Job × Option Progress)} : RunMove w limit s s
  | arrived {j : Job} {p : Option Progress} : callsOf p = [] →
    j.options.deadline = limit.map (fun ms => w.now + ms.toNat) →
    RunMove w limit none (some (j, p))
  | taken {j j' : Job} {p p' : Option Progress} : j'.options = j.options →
    (callsOf p' = callsOf p ∨ j.options.interruption w = none ∧
      ∃ i, callsOf p' = callsOf p ++ [i]) →
    RunMove w limit (some (j, p)) (some (j', p'))

theorem RunMove.of_eq {w : World} {limit : Option UInt64} {s s' : Option (Job × Option Progress)}
    (h : s' = s) : RunMove w limit s s' := h ▸ .same

theorem Progress.callsOf_step {e : Engine} {j : Job} {offered : Nat} {w v : World}
    {p q : Progress} (h : p.step? e j offered w = some (q, v)) :
    callsOf (some q) = callsOf (some p) ∨ j.options.interruption w = none ∧
      ∃ i, callsOf (some q) = callsOf (some p) ++ [i] := by
  rcases Progress.invocations_of_step h with ⟨hsame, -⟩ | hmore
  · exact .inl hsame
  · exact .inr hmore

theorem FrameTask.Move.run {c : Connection} {x y : FrameTask} {offered free k : Nat}
    {w v : World} {queue : List Outbound} (h : x.Move server offered w c y v free queue)
    (hx : x.Sound server c w k) (limit : Option UInt64) :
    RunMove w limit (some (x.job, x.worker)) (some (y.job, y.worker)) := by
  cases h with
  | acquired hs =>
    refine .taken rfl (.inl ?_)
    rw [hx.queued hs]
    rfl
  | worked hp hs => exact .taken rfl (hp ▸ Progress.callsOf_step hs)
  | gaveUp | released | replyQueued | replyDropped | aborted => exact .same

theorem Connection.Move.run {c d : Connection} {offered : Nat} {w v : World}
    {a : ConnectionAction} (h : c.Move server offered w a d v) (hc : c.Sound server w) (k : Nat) :
    RunMove w server.config.frameTimeout (c.run? k) (d.run? k) := by
  cases h with
  | ignored | closed | refused | refusalQueued | refusalDropped | written | readerStopped
  | writerStopped => exact .same
  | @accepted m content f =>
    simp only [Connection.run?, getElem?_concat]
    split
    · next hk =>
      rw [List.getElem?_eq_none (by omega)]
      exact .arrived rfl (Frame.deadline_options _ _ _)
    · exact .same
  | @task a i free t u v queue ha ht hm =>
    simp only [Connection.run?, getElem?_set_of_some ht]
    split
    · next hk =>
      subst hk
      rw [ht]
      exact hm.run (hc.tasks k t ht) _
    · exact .same

theorem Connection.Move.of_closes {c d : Connection} {offered : Nat} {w v : World}
    {a : ConnectionAction} (h : c.Move server offered w a d v) (ha : a.closes = true) :
    d.tasks = c.tasks ∧ v = c.cancel w := by
  cases h with
  | closed | readerStopped | writerStopped => exact ⟨rfl, rfl⟩
  | ignored _ hm => simp [ConnectionAction.closes_receive hm] at ha
  | refused _ hm | accepted _ hm => simp [ConnectionAction.closes_receive_of_content hm] at ha
  | refusalQueued | refusalDropped | written => cases ha
  | task hn => simp [hn] at ha

namespace Traffic

theorem Move.run (h : t.Move server a u) (hs : t.Sound server) (name : RunName) :
    RunMove t.world (name.limit server.config) (t.run? name) (u.run? name) := by
  cases h with
  | notOpened | refused | shutDown | ticked => exact .same
  | @opened slots ho =>
    cases name with
    | request n => exact .same
    | frame i k =>
      simp only [run?, getElem?_concat]
      split
      · next hi =>
        rw [List.getElem?_eq_none (by omega)]
        exact .same
      · exact .same
  | @acted i offered a c d v hc hd =>
    cases name with
    | request n => exact .same
    | frame k task =>
      simp only [run?, getElem?_set_of_some hc]
      split
      · next hk =>
        obtain ⟨-, slots, -, hr⟩ := hs.connections i c hc
        rw [hk, hc]
        exact (Connection.move_of_step hd).run hr.sound task
      · exact .same
  | posted request =>
    cases name with
    | frame i k => exact .same
    | request n =>
      simp only [run?, getElem?_concat]
      split
      · next hn =>
        rw [List.getElem?_eq_none (by omega)]
        exact .arrived rfl (Rest.deadline_options _ _ _)
      · exact .same
  | @worked i offered r q v hr hq =>
    cases name with
    | frame i k => exact .same
    | request n =>
      simp only [run?, getElem?_set_of_some hr]
      split
      · next hn =>
        rw [hn, hr]
        exact .taken rfl (Progress.callsOf_step hq)
      · exact .same
  | answered _ hr | dropped hr =>
    cases name with
    | frame i k => exact .same
    | request n =>
      refine .of_eq (map_getElem?_set (fun r : RestRun => (r.job, some r.worker)) hr ?_ n)
      rfl

theorem Move.of_cancels {o : Owner} (h : t.Move server a u) (hs : t.Sound server)
    (ha : a.cancels? = some o) : ∃ token, t.token? o = some token ∧
      u.world = { t.world with fired := token :: t.world.fired } ∧
      ∀ name, u.run? name = t.run? name := by
  cases h with
  | notOpened | opened | refused | posted | worked | answered | shutDown | ticked => cases ha
  | @acted i offered a c d v hc hd =>
    have hcloses : a.closes = true ∧ Owner.connection i = o := by
      simpa [TrafficAction.cancels?] using ha
    obtain ⟨hclose, rfl⟩ := hcloses
    obtain ⟨htasks, rfl⟩ := (Connection.move_of_step hd).of_closes hclose
    refine ⟨c.token, by simp [Traffic.token?, hc], rfl, fun name => ?_⟩
    cases name with
    | request n => rfl
    | frame k task =>
      simp only [run?, getElem?_set_of_some hc]
      split
      · next hk => simp [hk, hc, Connection.run?, htasks]
      · rfl
  | @dropped i r hr hw =>
    obtain rfl : Owner.request i = o := Option.some.inj ha
    obtain ⟨-, arrival, ho⟩ := hs.requests i r hr
    refine ⟨Token.root.child r.number, by simp [Traffic.token?, hr], ?_, fun name => ?_⟩
    · simp [ho, Rest.cancel_options]
    · cases name with
      | frame k task => rfl
      | request n =>
        refine map_getElem?_set (fun r : RestRun => (r.job, some r.worker)) hr ?_ n
        rfl

end Traffic

end

end ToolPipeline
