import ToolPipeline.Proofs.Server.Replies
import ToolPipeline.Proofs.Server.TrafficMoves

/-! How far a cancellation reaches. Every connection and every request has a token of its own below
the root, so that what is cancelled stops its own runs and no others, for good, and the time limit
of a run counts from its arrival. -/

namespace ToolPipeline

/-- The traffic that actions lead to, one after the other; the latest comes first. -/
inductive Traffic.Leads (server : Server) (t : Traffic) : List TrafficAction → Traffic → Prop where
  | refl : Leads server t [] t
  | step {past : List TrafficAction} {u v : Traffic} (a : TrafficAction) :
    Leads server t past u → u.step? server a = some v → Leads server t (a :: past) v

/-- Nothing but the root is cancelled in this world, or will be at a time to come. -/
structure World.SparesTokens (w : World) : Prop where
  fired : ∀ f ∈ w.fired, f = Token.root
  due : ∀ d ∈ w.due, d.2 = Token.root

/-- Everybody has another token, and those that have been cancelled are the root and the tokens of
whom the past is about. -/
structure Traffic.Scoped (past : List TrafficAction) (t : Traffic) : Prop where
  issued : ∀ o token, t.token? o = some token → ∃ n < t.issued, token = [n]
  distinct : ∀ o o' token, t.token? o = some token → t.token? o' = some token → o = o'
  fired : ∀ f ∈ t.world.fired, f = Token.root ∨
    ∃ o, t.token? o = some f ∧ ∃ a ∈ past, a.cancels? = some o
  due : ∀ d ∈ t.world.due, d.2 = Token.root
  cancelled : ∀ a ∈ past, ∀ o, a.cancels? = some o →
    ∃ token, t.token? o = some token ∧ token ∈ t.world.fired

/-- What a cancellation does to the runs of a server, and what it does not. -/
structure Traffic.KeepsScope (server : Server) (past : List TrafficAction) (t : Traffic) :
    Prop where
  /-- A run is told to stop if the server is shutting down, or if its own connection or request has
  been cancelled, and for no other reason. -/
  told : ∀ name j p, t.run? name = some (j, p) →
    (j.options.interruption t.world = some .signal ↔
      Shutdown.isShuttingDown t.world.cancelled = true ∨
        ∃ a ∈ past, a.cancels? = some name.owner)
  shutDown : .shutdown ∈ past → Shutdown.isShuttingDown t.world.cancelled = true
  /-- What cancels one connection or request leaves the runs of the others alone. -/
  apart : ∀ a o u, a.cancels? = some o → t.step? server a = some u →
    Shutdown.isShuttingDown u.world.cancelled = Shutdown.isShuttingDown t.world.cancelled ∧
    ∀ name, name.owner ≠ o → u.run? name = t.run? name ∧
      ∀ j p, t.run? name = some (j, p) →
        j.options.interruption u.world = j.options.interruption t.world
  /-- A request is not cancelled by its client any more once its handler is done. -/
  disarmed : ∀ n r, t.requests[n]? = some r → r.handler ≠ .waiting →
    t.step? server (.drop n) = none
  /-- A run keeps its options; once it has been told to stop it always is, and calls no tool. -/
  lasting : ∀ later u name j p, t.Leads server later u → t.run? name = some (j, p) →
    ∃ j' p', u.run? name = some (j', p') ∧ j'.options = j.options ∧
      (j.options.interruption t.world = some .signal →
        j.options.interruption u.world = some .signal ∧ callsOf p' = callsOf p)
  /-- A tool that is executing may return. -/
  returning : ∀ name j p, t.run? name = some (j, some p) → p.isInside = true →
    ∃ a u q, t.step? server a = some u ∧ u.run? name = some (j, some q) ∧ q.isInside = false
  /-- The time limit of a run counts from its arrival. -/
  arrival : ∀ a u name j p, t.step? server a = some u → t.run? name = none →
    u.run? name = some (j, p) → callsOf p = [] ∧
      j.options.deadline = (name.limit server.config).map fun ms => t.world.now + ms.toNat
  inTime : ∀ a u name j p j' p', t.step? server a = some u → t.run? name = some (j, p) →
    u.run? name = some (j', p') → callsOf p' ≠ callsOf p →
      ∀ moment, j.options.deadline = some moment → t.world.now < moment

section
variable {server : Server} {t u : Traffic} {a : TrafficAction} {w : World}
  {past : List TrafficAction}

namespace Traffic

theorem reachable_iff_leads : Reachable server w t ↔ ∃ past, (start w).Leads server past t := by
  constructor
  · intro h
    induction h with
    | start => exact ⟨[], .refl⟩
    | step a _ hs ih =>
      obtain ⟨past, hp⟩ := ih
      exact ⟨a :: past, hp.step a hs⟩
  · rintro ⟨past, h⟩
    induction h with
    | refl => exact .start
    | step a _ hs ih => exact ih.step a hs

def follow (server : Server) (t : Traffic) : List TrafficAction → Option Traffic
  | [] => some t
  | a :: rest => (t.step? server a).bind fun u => u.follow server rest

theorem Leads.follow (h : t.Leads server past u) {actions : List TrafficAction} {v : Traffic}
    (hv : u.follow server actions = some v) : t.Leads server (actions.reverse ++ past) v := by
  induction actions generalizing past u with
  | nil =>
    obtain rfl := Option.some.inj hv
    exact h
  | cons a rest ih =>
    obtain ⟨x, hx, hv⟩ := Option.bind_eq_some_iff.mp hv
    rw [List.reverse_cons, List.append_assoc]
    exact ih (h.step a hx) hv

theorem Move.token?_of_some (h : t.Move server a u) {o : Owner} {token : Token}
    (ho : t.token? o = some token) : u.token? o = some token := by
  rcases h.token? o with hu | ⟨-, hn, -, -⟩
  · exact hu.trans ho
  · simp [ho] at hn

theorem Scoped.step (hc : t.Scoped past) (h : t.Move server a u)
    (he : server.engine.registry.SparesTokens) (hs : t.Sound server) :
    u.Scoped (a :: past) := by
  have hf := h.fires he hs
  refine ⟨fun o token ho => ?_, fun o o' token ho ho' => ?_, fun f hfired => ?_, ?_,
    fun b hb o ho => ?_⟩
  · have hle := h.issued_le
    rcases h.token? o with hu | ⟨-, -, hu, hi⟩
    · obtain ⟨n, hn, rfl⟩ := hc.issued o token (hu.symm.trans ho)
      exact ⟨n, by omega, rfl⟩
    · exact ⟨t.issued, by omega, Option.some.inj (ho.symm.trans hu)⟩
  · -- the next token has a number that nobody has been given so far
    have hnew (o : Owner) (ho : t.token? o = some token) : token ≠ t.nextToken := by
      obtain ⟨n, hn, rfl⟩ := hc.issued o token ho
      intro he
      have hn' : n = t.issued := by simpa [nextToken, Token.child, Token.root] using he
      omega
    rcases h.token? o with hu | ⟨hopen, -, hu, -⟩
    · rcases h.token? o' with hu' | ⟨-, -, hu', -⟩
      · exact hc.distinct o o' token (hu.symm.trans ho) (hu'.symm.trans ho')
      · have htoken := Option.some.inj (ho'.symm.trans hu')
        exact absurd htoken (hnew o (hu.symm.trans ho))
    · have htoken := Option.some.inj (ho.symm.trans hu)
      rcases h.token? o' with hu' | ⟨hopen', -, -, -⟩
      · exact absurd htoken (hnew o' (hu'.symm.trans ho'))
      · exact Option.some.inj (hopen.symm.trans hopen')
  · rcases hf.fired f hfired with hold | hroot | hown
    · rcases hc.fired f hold with hroot | ⟨o, ho, b, hb, hbo⟩
      · exact .inl hroot
      · exact .inr ⟨o, h.token?_of_some ho, b, List.mem_cons_of_mem a hb, hbo⟩
    · exact .inl hroot
    · obtain ⟨o, ho, htoken⟩ := Option.bind_eq_some_iff.mp hown
      exact .inr ⟨o, h.token?_of_some htoken, a, List.mem_cons_self, ho⟩
  · rw [hf.due]
    exact hc.due
  · rcases List.mem_cons.mp hb with rfl | hb
    · obtain ⟨token, htoken, hw, -⟩ := h.of_cancels hs ho
      exact ⟨token, h.token?_of_some htoken, hw ▸ List.mem_cons_self⟩
    · obtain ⟨token, htoken, hmem⟩ := hc.cancelled b hb o ho
      exact ⟨token, h.token?_of_some htoken, hf.kept token hmem⟩

theorem Scoped.start (hw : w.SparesTokens) : (Traffic.start w).Scoped [] where
  issued o token ho := by cases o <;> simp [Traffic.start, Traffic.token?] at ho
  distinct o o' token ho _ := by cases o <;> simp [Traffic.start, Traffic.token?] at ho
  fired f hf := .inl (hw.fired f hf)
  due := hw.due
  cancelled := nofun

theorem Leads.sound (h : t.Leads server past u) (he : server.engine.registry.SparesTokens)
    (hs : t.Sound server) : u.Sound server := by
  induction h with
  | refl => exact hs
  | step a _ hstep ih => exact (move_of_step hstep).sound he ih

theorem Leads.scoped (h : (Traffic.start w).Leads server past t) (hw : w.SparesTokens)
    (he : server.engine.registry.SparesTokens) : t.Scoped past := by
  induction h with
  | refl => exact .start hw
  | step a hl hstep ih => exact ih.step (move_of_step hstep) he (hl.sound he (.start server w))

theorem Scoped.of_mem_cancelled (h : t.Scoped past) {f : Token} (hf : f ∈ t.world.cancelled) :
    f = Token.root ∨ ∃ o, t.token? o = some f ∧ ∃ a ∈ past, a.cancels? = some o := by
  rcases World.mem_cancelled.mp hf with hfired | ⟨moment, -, hdue⟩
  · exact h.fired f hfired
  · exact .inl (h.due _ hdue)

/-- The frames of a connection of a server are only cancelled with the connection. -/
theorem Scoped.framesSpared (h : t.Scoped past) {i : Nat} {c : Connection}
    (hc : t.connections[i]? = some c) : c.FramesSpared t.world := by
  intro k hk
  have htoken : t.token? (.connection i) = some c.token := by simp [token?, hc]
  obtain ⟨n, -, hn⟩ := h.issued _ _ htoken
  obtain ⟨f, hf, hsuffix⟩ := Token.isCancelled_iff.mp hk
  refine Token.isCancelled_iff.mpr ⟨f, hf, ?_⟩
  rcases List.suffix_cons_iff.mp hsuffix with hself | habove
  · -- nobody has the token of a frame, which is two below the root
    rcases h.of_mem_cancelled hf with hroot | ⟨o, ho, -⟩
    · simp [hroot, Token.root] at hself
    · obtain ⟨m, -, hm⟩ := h.issued o f ho
      simp [hn, hm] at hself
  · exact habove

theorem Sound.cancel_options (hs : t.Sound server) {name : RunName} {j : Job}
    {p : Option Progress} (h : t.run? name = some (j, p)) :
    ∃ token, t.token? name.owner = some token ∧
      j.options.cancel = some (name.branch ++ token) := by
  cases name with
  | frame i k =>
    obtain ⟨c, hc, hk⟩ := Option.bind_eq_some_iff.mp h
    obtain ⟨x, hx, hj⟩ := Option.map_eq_some_iff.mp hk
    obtain ⟨-, slots, -, hr⟩ := hs.connections i c hc
    obtain rfl : x.job = j := congrArg Prod.fst hj
    exact ⟨c.token, by simp [RunName.owner, token?, hc], (hr.sound.tasks k x hx).options_cancel⟩
  | request n =>
    obtain ⟨r, hr, hj⟩ := Option.map_eq_some_iff.mp h
    obtain ⟨-, arrival, ho⟩ := hs.requests n r hr
    obtain rfl : r.job = j := congrArg Prod.fst hj
    exact ⟨Token.root.child r.number, by simp [RunName.owner, token?, hr],
      ho ▸ Rest.cancel_options _ _ _⟩

end Traffic

theorem eq_of_singleton_suffix {l : Token} {m n : Nat} (h : [m] <:+ l ++ [n]) : m = n := by
  obtain ⟨front, hf⟩ := h
  have he := (List.append_inj' hf rfl).2
  simpa using he

theorem isShuttingDown_iff : Shutdown.isShuttingDown w.cancelled = true ↔
    Token.root ∈ w.cancelled := by
  rw [Shutdown.isShuttingDown, Token.isCancelled_iff]
  constructor
  · rintro ⟨f, hf, hs⟩
    obtain rfl : f = Token.root := List.suffix_nil.mp hs
    exact hf
  · exact fun h => ⟨Token.root, h, List.suffix_refl _⟩

theorem Token.isCancelled_fire {token x : Token} (h : ¬ token <:+ x) :
    isCancelled ({ w with fired := token :: w.fired } : World).cancelled x =
      isCancelled w.cancelled x := by
  have hn : token.isSuffixOf x = false :=
    Bool.eq_false_iff.mpr fun hs => h (List.isSuffixOf_iff_suffix.mp hs)
  simp [isCancelled, World.cancelled, hn]

theorem Options.interruption_fire {o : Options} {token : Token}
    (h : ∀ x, o.cancel = some x → ¬ token <:+ x) :
    o.interruption { w with fired := token :: w.fired } = o.interruption w := by
  unfold interruption
  cases hc : o.cancel with
  | none => rfl
  | some x =>
    rw [Option.any_some, Option.any_some, Token.isCancelled_fire (h x hc)]

namespace Traffic

theorem Scoped.told (hc : t.Scoped past) (hs : t.Sound server) {name : RunName} {j : Job}
    {p : Option Progress} (h : t.run? name = some (j, p)) :
    j.options.interruption t.world = some .signal ↔
      Shutdown.isShuttingDown t.world.cancelled = true ∨
        ∃ a ∈ past, a.cancels? = some name.owner := by
  obtain ⟨token, htoken, hcancel⟩ := hs.cancel_options h
  obtain ⟨n, -, rfl⟩ := hc.issued _ _ htoken
  rw [Options.interruption_eq_signal_iff, isShuttingDown_iff]
  constructor
  · rintro ⟨x, hx, hcancelled⟩
    obtain rfl := Option.some.inj (hcancel.symm.trans hx)
    obtain ⟨f, hf, hsuffix⟩ := Token.isCancelled_iff.mp hcancelled
    rcases hc.of_mem_cancelled hf with rfl | ⟨o, ho, b, hb, hbo⟩
    · exact .inl hf
    · obtain ⟨m, -, rfl⟩ := hc.issued o f ho
      obtain rfl := eq_of_singleton_suffix hsuffix
      exact .inr ⟨b, hb, hc.distinct _ _ _ ho htoken ▸ hbo⟩
  · intro hwhy
    refine ⟨_, hcancel, Token.isCancelled_iff.mpr ?_⟩
    rcases hwhy with hroot | ⟨b, hb, hbo⟩
    · exact ⟨Token.root, hroot, List.nil_suffix⟩
    · obtain ⟨token, ht, hmem⟩ := hc.cancelled b hb _ hbo
      obtain rfl := Option.some.inj (htoken.symm.trans ht)
      exact ⟨[n], World.mem_cancelled.mpr (.inl hmem), List.suffix_append _ _⟩

theorem Scoped.apart (hc : t.Scoped past) (hs : t.Sound server) {o : Owner}
    (ha : a.cancels? = some o) (h : t.Move server a u) :
    Shutdown.isShuttingDown u.world.cancelled = Shutdown.isShuttingDown t.world.cancelled ∧
    ∀ name, name.owner ≠ o → u.run? name = t.run? name ∧
      ∀ j p, t.run? name = some (j, p) →
        j.options.interruption u.world = j.options.interruption t.world := by
  obtain ⟨token, htoken, hworld, hruns⟩ := h.of_cancels hs ha
  obtain ⟨m, -, rfl⟩ := hc.issued o token htoken
  rw [hworld]
  refine ⟨?_, fun name hname => ⟨hruns name, fun j p hrun => ?_⟩⟩
  · refine Token.isCancelled_fire fun hsuffix => ?_
    simp [Token.root] at hsuffix
  · obtain ⟨own, hown, hcancel⟩ := hs.cancel_options hrun
    obtain ⟨n, -, rfl⟩ := hc.issued _ own hown
    refine Options.interruption_fire fun x hx hsuffix => hname ?_
    obtain rfl := Option.some.inj (hcancel.symm.trans hx)
    obtain rfl := eq_of_singleton_suffix hsuffix
    exact hc.distinct _ _ _ hown htoken

end Traffic

theorem RunMove.of_some {limit : Option UInt64} {j : Job} {p : Option Progress}
    {s : Option (Job × Option Progress)} (h : RunMove w limit (some (j, p)) s) :
    ∃ j' p', s = some (j', p') ∧ j'.options = j.options ∧
      (callsOf p' = callsOf p ∨ j.options.interruption w = none) := by
  cases h with
  | same => exact ⟨j, p, rfl, rfl, .inl rfl⟩
  | taken ho hcalls =>
    rcases hcalls with hsame | ⟨hi, -⟩
    · exact ⟨_, _, rfl, ho, .inl hsame⟩
    · exact ⟨_, _, rfl, ho, .inr hi⟩

theorem RunMove.of_none {limit : Option UInt64} {j : Job} {p : Option Progress}
    (h : RunMove w limit none (some (j, p))) :
    callsOf p = [] ∧ j.options.deadline = limit.map fun ms => w.now + ms.toNat := by
  cases h with
  | arrived hcalls hd => exact ⟨hcalls, hd⟩

namespace Traffic

theorem Leads.lasting {later : List TrafficAction} (h : t.Leads server later u)
    (he : server.engine.registry.SparesTokens) (hs : t.Sound server) {name : RunName} {j : Job}
    {p : Option Progress} (hrun : t.run? name = some (j, p)) :
    ∃ j' p', u.run? name = some (j', p') ∧ j'.options = j.options ∧
      (j.options.interruption t.world = some .signal →
        j.options.interruption u.world = some .signal ∧ callsOf p' = callsOf p) := by
  -- every step finds the run still told to stop, so that none of them calls a tool
  induction h with
  | refl => exact ⟨j, p, hrun, rfl, fun hi => ⟨hi, rfl⟩⟩
  | @step later u v a hl hstep ih =>
    obtain ⟨j', p', hu, ho, hlast⟩ := ih
    have hm := move_of_step hstep
    have hmove := hm.run (hl.sound he hs) name
    rw [hu] at hmove
    obtain ⟨k, q, hv, hko, hcalls⟩ := hmove.of_some
    refine ⟨k, q, hv, hko.trans ho, fun hi => ?_⟩
    obtain ⟨hsignal, hsame⟩ := hlast hi
    refine ⟨Options.interruption_signal_of_before hm.before hsignal, ?_⟩
    rcases hcalls with hq | hnone
    · exact hq.trans hsame
    · rw [ho, hsignal] at hnone
      cases hnone

end Traffic

theorem Progress.leaves {p : Progress} (h : p.isInside = true) (e : Engine) (j : Job)
    (offered : Nat) (w : World) :
    ∃ q v, p.step? e j offered w = some (q, v) ∧ q.isInside = false := by
  cases p with
  | fresh | between | «over» => cases h
  | inside plugin tool rest r call =>
    refine ⟨_, _, rfl, ?_⟩
    unfold leave
    split <;> rfl

namespace Traffic

theorem step_act {i : Nat} {b : ConnectionAction} {c d : Connection} {v : World}
    (hc : t.connections[i]? = some c)
    (hd : c.step? server t.offered t.world b = some (d, v)) : t.step? server (.act i b) =
      some { t with
        world := v
        connections := t.connections.set i d
        offered := t.offered + connectionOffers c d } := by
  simp [step?, act, hc, hd]

theorem step_work {n : Nat} {r : RestRun} {q : Progress} {v : World}
    (hr : t.requests[n]? = some r)
    (hq : r.worker.step? server.engine r.job t.offered t.world = some (q, v)) :
    t.step? server (.work n) =
      some { t.setRequest n { r with worker := q } with
        world := v, offered := t.offered + r.worker.newOffers q } := by
  simp [step?, work, hr, hq]

theorem exists_step_of_isInside {name : RunName} {j : Job} {p : Progress}
    (h : t.run? name = some (j, some p)) (hp : p.isInside = true) :
    ∃ a u q, t.step? server a = some u ∧ u.run? name = some (j, some q) ∧ q.isInside = false := by
  obtain ⟨q, v, hq, hout⟩ := p.leaves hp server.engine j t.offered t.world
  cases name with
  | frame i k =>
    obtain ⟨c, hc, hk⟩ := Option.bind_eq_some_iff.mp h
    obtain ⟨x, hx, hj⟩ := Option.map_eq_some_iff.mp hk
    obtain ⟨rfl, hw⟩ := Prod.mk.inj hj
    refine ⟨_, _, q, step_act hc (Connection.step_work hx hw hq), ?_, hout⟩
    simp [run?, getElem?_set_of_some hc, Connection.run?, Connection.setTask,
      getElem?_set_of_some hx]
  | request n =>
    obtain ⟨r, hr, hj⟩ := Option.map_eq_some_iff.mp h
    obtain ⟨rfl, hw⟩ := Prod.mk.inj hj
    obtain rfl := Option.some.inj hw
    refine ⟨_, _, q, step_work hr hq, ?_, hout⟩
    simp [run?, setRequest, getElem?_set_of_some hr]

theorem Leads.isShuttingDown (h : t.Leads server past u) (hp : .shutdown ∈ past) :
    Shutdown.isShuttingDown u.world.cancelled = true := by
  induction h with
  | refl => cases hp
  | @step past u v a _ hstep ih =>
    rcases List.mem_cons.mp hp with rfl | hp
    · obtain rfl := Option.some.inj hstep
      exact isShuttingDown_iff.mpr (World.mem_cancelled.mpr (.inl List.mem_cons_self))
    · exact (move_of_step hstep).before.2 Token.root (ih hp)

end Traffic

/-- A cancellation stops the runs that it is about, for good and without another tool call, and no
others, in whatever order connections, frames and requests come and go. -/
theorem cancellation_keeps_scope (hw : w.SparesTokens)
    (he : server.engine.registry.SparesTokens) (h : (Traffic.start w).Leads server past t) :
    t.KeepsScope server past := by
  have hs : t.Sound server := h.sound he (.start server w)
  have hc : t.Scoped past := h.scoped hw he
  refine ⟨fun name j p hrun => hc.told hs hrun, fun hp => h.isShuttingDown hp,
    fun a o u ha hstep => hc.apart hs ha (Traffic.move_of_step hstep), fun n r hr hn => ?_,
    fun later u name j p hl hrun => hl.lasting he hs hrun,
    fun name j p hrun hp => Traffic.exists_step_of_isInside hrun hp,
    fun a u name j p hstep hnone hsome => ?_,
    fun a u name j p j' p' hstep hrun hrun' hcalls moment hd => ?_⟩
  · cases hh : r.handler with
    | waiting => exact absurd hh hn
    | answered response | dropped => simp [Traffic.step?, Traffic.drop, hr, RestRun.drop, hh]
  · have hmove := (Traffic.move_of_step hstep).run hs name
    rw [hnone, hsome] at hmove
    exact hmove.of_none
  · have hmove := (Traffic.move_of_step hstep).run hs name
    rw [hrun] at hmove
    obtain ⟨k, q, hq, -, hwhy⟩ := hmove.of_some
    obtain ⟨-, rfl⟩ := Prod.mk.inj (Option.some.inj (hrun'.symm.trans hq))
    rcases hwhy with hsame | hi
    · exact absurd hsame hcalls
    · exact Options.lt_deadline_of_interruption hi hd

end

/-- Two connections with a frame each, and a request. The first connection is closed, and the
client of the request gives up, while the other frame is still queued. -/
def crossedActions : List TrafficAction :=
  [.connect, .connect, .tick 5, .act 0 (.receive (.text tracedFrame)),
    .act 1 (.receive (.text tracedFrame)), .post tracedPost, .act 0 (.receive .close), .tick 3,
    .drop 0]

theorem cancellation_keeps_scope_crossed :
    let server : Server := ⟨⟨Registry.empty.register DebugTools.plugin, .memory⟩, .default⟩
    World.initial.SparesTokens ∧ server.engine.registry.SparesTokens ∧
    ∃ s, (Traffic.start .initial).Leads server crossedActions.reverse s ∧
      (∃ j p, s.run? (.frame 0 0) = some (j, p) ∧
        j.options.interruption s.world = some .signal) ∧
      (∃ j p, s.run? (.request 0) = some (j, p) ∧
        j.options.interruption s.world = some .signal) ∧
      ∃ j p, s.run? (.frame 1 0) = some (j, p) ∧ j.options.deadline = some 2005 ∧
        j.options.interruption s.world ≠ some .signal := by
  intro server
  have hw : World.initial.SparesTokens := ⟨nofun, nofun⟩
  have he : server.engine.registry.SparesTokens :=
    (Registry.empty_steady.register DebugTools.plugin_steady).sparesTokens
  have hfound : ((Traffic.start .initial).follow server crossedActions).any (fun s =>
      (s.run? (.frame 0 0)).isSome && (s.run? (.request 0)).isSome &&
        (s.run? (.frame 1 0)).any (fun r => r.1.options.deadline = some 2005) &&
        !Shutdown.isShuttingDown s.world.cancelled) = true := by decide +kernel
  obtain ⟨s, hs⟩ := Option.isSome_iff_exists.mp (Option.isSome_of_any hfound)
  rw [hs, Option.any_some] at hfound
  simp only [Bool.and_eq_true, Bool.not_eq_true'] at hfound
  obtain ⟨⟨⟨hclosed, hdropped⟩, hother⟩, hrunning⟩ := hfound
  obtain ⟨⟨j, p⟩, hj⟩ := Option.isSome_iff_exists.mp hclosed
  obtain ⟨⟨k, q⟩, hq⟩ := Option.isSome_iff_exists.mp hdropped
  obtain ⟨⟨l, r⟩, hr⟩ := Option.isSome_iff_exists.mp (Option.isSome_of_any hother)
  have hl : (Traffic.start .initial).Leads server crossedActions.reverse s :=
    (Traffic.Leads.refl).follow hs
  have hk := cancellation_keeps_scope hw he hl
  have hclose : .act 0 (.receive .close) ∈ crossedActions.reverse := by simp [crossedActions]
  have hdrop : .drop 0 ∈ crossedActions.reverse := by simp [crossedActions]
  refine ⟨hw, he, s, hl, ⟨j, p, hj, (hk.told _ j p hj).mpr (.inr ⟨_, hclose, rfl⟩)⟩,
    ⟨k, q, hq, (hk.told _ k q hq).mpr (.inr ⟨_, hdrop, rfl⟩)⟩, l, r, hr, ?_, fun hi => ?_⟩
  · simpa [hr] using hother
  · rcases (hk.told _ l r hr).mp hi with hshut | ⟨a, ha, hc⟩
    · simp [hshut] at hrunning
    · simp only [crossedActions, List.mem_reverse, List.mem_cons, List.not_mem_nil,
        or_false] at ha
      rcases ha with rfl | rfl | rfl | rfl | rfl | rfl | rfl | rfl | rfl <;> cases hc

end ToolPipeline
