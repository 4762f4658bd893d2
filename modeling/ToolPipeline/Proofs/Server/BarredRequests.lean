import ToolPipeline.Proofs.Pipeline.Admission
import ToolPipeline.Proofs.Server.Replies
import ToolPipeline.Proofs.Server.TrafficMoves
import ToolPipeline.Server.Session

/-! Answers that blame the request: over HTTP a status of the four hundreds, on a socket the code of
an invalid pipeline. No tool has been called for a request that has such an answer. -/

namespace ToolPipeline

def Http.Response.BlamesRequest (r : Http.Response) : Prop := 400 ≤ r.status ∧ r.status < 500

theorem Rest.invalid_of_respond {worker : String} {o : Outcome}
    (h : (respond worker o).BlamesRequest) : ∃ error, o = .error (.invalid error) := by
  obtain ⟨hlow, hhigh⟩ := h
  cases o with
  | ok r => exact absurd hlow (by decide : ¬ 400 ≤ 200)
  | panicked p => exact absurd hhigh (by decide : ¬ 500 < 500)
  | error e =>
    cases e with
    | invalid error => exact ⟨error, rfl⟩
    | toolFailed | notAnObject => exact absurd hhigh (by decide : ¬ 500 < 500)
    | cancelled step reason =>
      cases reason with
      | deadline => exact absurd hhigh (by decide : ¬ 504 < 500)
      | signal => exact absurd hhigh (by decide : ¬ 503 < 500)

/-- There was no run for a request that is blamed, or its run was rejected at once. -/
theorem Rest.post_of_blamesRequest {server : Server} {a : Attempt} {r : Http.Request} {w : World}
    (h : (post server a r w).response.BlamesRequest) :
    (post server a r w).world = w ∧ ∀ ended, (post server a r w).ended = some ended →
      ∃ payload error, ended = Engine.reject (.start payload a.offered) error := by
  unfold post at h ⊢
  cases hr : readBody server.config.maxMessageSize.toNat r with
  | error f => exact ⟨rfl, nofun⟩
  | ok request =>
    simp only [hr] at h ⊢
    obtain ⟨error, ho⟩ := invalid_of_respond h
    have hv := ((Engine.run_gated ..).invalid_iff error).mp ho
    rw [Engine.run_of_invalid hv]
    refine ⟨rfl, fun ended he => ?_⟩
    cases he
    exact ⟨_, _, rfl⟩

namespace Session

variable {s t : Session} {names : RunNames} {patience : Option Nat} {r : Http.Request}
  {response : Http.Response}

/-- No tool has been called from one moment to the other, and nothing has been recorded. -/
structure Idle (s t : Session) : Prop where
  calls : t.world.calls = s.world.calls
  offered : t.offered = s.offered
  kept : t.kept = s.kept

theorem Idle.refl (s : Session) : s.Idle s := ⟨rfl, rfl, rfl⟩

theorem absorb_idle {x : Exchange} (began : Nat) (hw : x.world.calls = s.world.calls)
    (he : ∀ ended, x.ended = some ended →
      ∃ payload error, ended = Engine.reject (.start payload s.offered) error) :
    s.Idle (s.absorb began x) := by
  unfold absorb
  cases hx : x.ended with
  | none => exact ⟨hw, rfl, rfl⟩
  | some ended =>
    obtain ⟨payload, error, rfl⟩ := he ended hx
    refine ⟨hw, rfl, ?_⟩
    -- a rejected run ends without a record
    simp [Engine.reject_start, Trace.timedRecords]

theorem post_idle (h : s.post names patience r = (some response, t))
    (hb : response.BlamesRequest) : s.Idle t := by
  unfold post at h
  cases patience with
  | none =>
    obtain ⟨hresponse, rfl⟩ := Prod.mk.inj h
    obtain rfl := Option.some.inj hresponse
    obtain ⟨hw, he⟩ := Rest.post_of_blamesRequest hb
    have hcalls := congrArg World.calls hw
    exact absorb_idle _ hcalls he
  | some ms =>
    simp only at h
    split at h
    · obtain ⟨hresponse, rfl⟩ := Prod.mk.inj h
      obtain rfl := Option.some.inj hresponse
      obtain ⟨hw, he⟩ := Rest.post_of_blamesRequest hb
      have hcalls := congrArg World.calls hw
      exact absorb_idle _ hcalls he
    · cases h

theorem handle_idle {route : Route} (h : s.handle names patience route r = (some response, t))
    (hb : response.BlamesRequest) : s.Idle t := by
  cases route with
  | pipeline => exact post_idle h hb
  | health | plugins =>
    obtain ⟨-, rfl⟩ := Prod.mk.inj h
    exact .refl s
  | socket =>
    unfold handle at h
    simp only at h
    split at h <;> (obtain ⟨-, rfl⟩ := Prod.mk.inj h; exact .refl s)

theorem finish_status (method : String) (response : Http.Response) :
    (Router.finish method response).status = response.status := by
  unfold Router.finish
  simp only
  split <;> rfl

theorem request_idle (h : s.request names patience r = (some response, t))
    (hb : response.BlamesRequest) : s.Idle t := by
  unfold request at h
  split at h
  · next route hd =>
    cases hh : s.handle names patience route r with
    | mk reception u =>
      simp only [hh, Prod.mk.injEq, Option.map_eq_some_iff] at h
      obtain ⟨⟨inner, rfl, rfl⟩, rfl⟩ := h
      rw [Http.Response.BlamesRequest, finish_status] at hb
      exact handle_idle hh hb
  · obtain ⟨-, rfl⟩ := Prod.mk.inj h
    exact .refl s

end Session

/-- How far the run of a request has come agrees with the checks, and its answer with its end. -/
structure RestRun.Gated (e : Engine) (r : RestRun) : Prop where
  worker : r.worker.Gated e r.job
  answered : ∀ response, r.handler = .answered response →
    ∃ ended, r.worker = .over ended ∧ response = Rest.respond (toString r.number) ended.outcome

namespace RestRun

variable {e : Engine} {r r' : RestRun}

theorem start_gated (e : Engine) (config : ServerConfig) (token : Token) (n now : Nat)
    (request : Request) : (start config token n now request).Gated e := ⟨trivial, nofun⟩

theorem Gated.work (h : r.Gated e) {offered : Nat} {w v : World} {q : Progress}
    (hs : r.worker.step? e r.job offered w = some (q, v)) : { r with worker := q }.Gated e := by
  refine ⟨h.worker.step hs, fun response ha => ?_⟩
  obtain ⟨ended, he, -⟩ := h.answered response ha
  rw [he] at hs
  cases hs

theorem Gated.answer (h : r.Gated e) (ha : r.answer = some r') : r'.Gated e := by
  unfold RestRun.answer at ha
  split at ha
  · next ended hw he =>
    obtain rfl := Option.some.inj ha
    refine ⟨h.worker, fun response hr => ⟨ended, ?_, ?_⟩⟩
    · cases hp : r.worker with
      | «over» last =>
        rw [hp] at he
        exact congrArg _ (Option.some.inj he)
      | fresh | between | inside =>
        rw [hp] at he
        cases he
    · cases hr
      rfl
  · cases ha

theorem Gated.drop (h : r.Gated e) (hd : r.drop = some r') : r'.Gated e := by
  unfold RestRun.drop at hd
  split at hd
  · obtain rfl := Option.some.inj hd
    exact ⟨h.worker, nofun⟩
  · cases hd

theorem Gated.barred (h : r.Gated e) {response : Http.Response}
    (hr : r.handler = .answered response) (hb : response.BlamesRequest) :
    ∃ ended, r.worker = .over ended ∧ ended.trace.invocations = [] := by
  obtain ⟨ended, he, rfl⟩ := h.answered response hr
  obtain ⟨error, ho⟩ := Rest.invalid_of_respond hb
  have hg : ended.Gated e.registry r.job.request := by
    have hw := h.worker
    rwa [he] at hw
  exact ⟨ended, he, (hg.trace.barred error ((hg.invalid_iff error).mp ho)).1⟩

end RestRun

theorem Traffic.gated_of_step {server : Server} {t u : Traffic} {a : TrafficAction}
    (h : t.step? server a = some u)
    (ht : ∀ (n : Nat) (r : RestRun), t.requests[n]? = some r → r.Gated server.engine) :
    ∀ (n : Nat) (r : RestRun), u.requests[n]? = some r → r.Gated server.engine := by
  cases a with
  | connect | shutdown | tick =>
    obtain rfl := Option.some.inj h
    exact ht
  | act i a =>
    simp only [step?, act, bind, Option.bind_eq_some_iff, pure, Option.some.injEq] at h
    obtain ⟨c, -, d, -, rfl⟩ := h
    exact ht
  | post r =>
    obtain rfl := Option.some.inj h
    unfold post
    split
    · exact ht
    · next request hr => exact forall_getElem?_concat (RestRun.start_gated ..) ht
  | work i =>
    simp only [step?, work, bind, Option.bind_eq_some_iff, pure, Option.some.injEq] at h
    obtain ⟨r, hr, ⟨q, v⟩, hq, rfl⟩ := h
    exact forall_getElem?_set hr ((ht i r hr).work hq) ht
  | answer i =>
    simp only [step?, answer, Option.map_eq_some_iff, Option.bind_eq_some_iff] at h
    obtain ⟨r', ⟨r, hr, ha⟩, rfl⟩ := h
    exact forall_getElem?_set hr ((ht i r hr).answer ha) ht
  | drop i =>
    simp only [step?, drop, bind, Option.bind_eq_some_iff, pure, Option.some.injEq] at h
    obtain ⟨r, hr, r', hd, rfl⟩ := h
    exact forall_getElem?_set hr ((ht i r hr).drop hd) ht

theorem Traffic.Reachable.gated {server : Server} {w : World} {t : Traffic}
    (h : Reachable server w t) (n : Nat) (r : RestRun) (hr : t.requests[n]? = some r) :
    r.Gated server.engine := by
  induction h generalizing n r with
  | start => simp [Traffic.start] at hr
  | step a _ hs ih => exact gated_of_step hs ih n r hr

theorem PipelineError.code_eq_invalid {e : PipelineError} (h : e.code = "INVALID_PIPELINE") :
    ∃ error, e = .invalid error := by
  cases e with
  | invalid error => exact ⟨error, rfl⟩
  | toolFailed | notAnObject => simp [code] at h
  | cancelled step reason => cases reason <;> simp [code] at h

theorem Message.refusal?_ne_code {m : Message} {frameId message code : String} :
    m.refusal? ≠ some (.error frameId message (some code)) := by
  intro h
  obtain ⟨content, -, hr⟩ := Option.bind_eq_some_iff.mp h
  cases content with
  | none => simp [Frame.read, Frame.notText] at hr
  | some s =>
    cases hp : Frame.parse s with
    | ok f => simp [Frame.read, hp, mapError_ok] at hr
    | error refusal => simp [Frame.read, hp, mapError_error, Frame.refusalReply] at hr

theorem Frame.outcome_of_reply {f : Frame} {o : Outcome} {frameId message code : String}
    (h : f.reply o = .error frameId message (some code)) : ∃ e, o = .error e ∧ e.code = code := by
  cases o with
  | ok r => cases h
  | panicked p => cases h
  | error e =>
    cases h
    exact ⟨e, rfl, rfl⟩

namespace Connection

variable {server : Server} {offered : Nat} {v w : World} {c d : Connection} {token : Token}
  {slots : Nat}

structure Numbered (c : Connection) : Prop where
  increasing : (c.tasks.map FrameTask.message).Pairwise (· < ·)
  received : ∀ n ∈ c.tasks.map FrameTask.message, n < c.received.length

theorem Move.numbered {a : ConnectionAction} (h : c.Move server offered w a d v)
    (hc : c.Numbered) : d.Numbered := by
  have hmore (m : Message) (n : Nat) (hn : n ∈ c.tasks.map FrameTask.message) :
      n < (c.received ++ [m]).length := by
    have hlt := hc.received n hn
    rw [List.length_append, List.length_singleton]
    omega
  cases h with
  | refusalQueued | refusalDropped | written | readerStopped | writerStopped =>
    exact ⟨hc.increasing, hc.received⟩
  | ignored | closed | refused => exact ⟨hc.increasing, hmore _⟩
  | @accepted m content f =>
    have hnew : ((c.tasks ++ [c.taskOf server.config v.now f]).map FrameTask.message) =
        c.tasks.map FrameTask.message ++ [c.received.length] := by
      rw [List.map_append]
      rfl
    refine ⟨?_, fun n hn => ?_⟩
    · rw [hnew]
      refine List.pairwise_append.mpr ⟨hc.increasing, List.pairwise_singleton _ _, ?_⟩
      intro n hn k hk
      obtain rfl := List.mem_singleton.mp hk
      exact hc.received n hn
    · rw [hnew, List.mem_append, List.mem_singleton] at hn
      rcases hn with hn | rfl
      · exact hmore m n hn
      · rw [List.length_append, List.length_singleton]
        omega
  | @task a i free t u v queue ha ht hm =>
    have hsame : (c.tasks.set i u).map FrameTask.message = c.tasks.map FrameTask.message := by
      refine List.ext_getElem? fun k => ?_
      rw [List.getElem?_map, List.getElem?_map]
      exact map_getElem?_set FrameTask.message ht hm.message_eq.1 k
    exact ⟨hsame ▸ hc.increasing, fun n hn => hc.received n (hsame ▸ hn)⟩

theorem Reachable.numbered (h : Reachable server token slots c w) : c.Numbered := by
  induction h with
  | start w => exact ⟨List.Pairwise.nil, nofun⟩
  | act offered a _ hs ih => exact (move_of_step hs).numbered ih
  | elapse _ _ ih => exact ih

theorem Numbered.unique (hc : c.Numbered) {i k : Nat} {t u : FrameTask}
    (ht : c.tasks[i]? = some t) (hu : c.tasks[k]? = some u) (he : u.message = t.message) :
    k = i := by
  have hlt {i k : Nat} {t u : FrameTask} (ht : c.tasks[i]? = some t) (hu : c.tasks[k]? = some u)
      (hik : i < k) : t.message < u.message := by
    obtain ⟨hi, rfl⟩ := List.getElem?_eq_some_iff.mp ht
    obtain ⟨hk, rfl⟩ := List.getElem?_eq_some_iff.mp hu
    have hp := List.pairwise_iff_getElem.mp hc.increasing i k (by simpa using hi)
      (by simpa using hk) hik
    simpa using hp
  rcases Nat.lt_trichotomy i k with hik | hik | hik
  · have hh := hlt ht hu hik
    omega
  · exact hik.symm
  · have hh := hlt hu ht hik
    omega

/-- A reply with the code of an invalid pipeline comes from the one task of its message, whose run
is over without a call. -/
theorem Reachable.barred (h : Reachable server token slots c w) {o : Outbound}
    (ho : o ∈ c.replies) {frameId message : String}
    (he : o.2 = .error frameId message (some "INVALID_PIPELINE")) :
    ∃ (i : Nat) (t : FrameTask) (ended : Ended), c.tasks[i]? = some t ∧ t.message = o.1 ∧
      t.worker = some (.over ended) ∧ ended.trace.invocations = [] ∧
      ∀ k u, c.tasks[k]? = some u → u.message = o.1 → k = i := by
  rcases h.backed ho with hr | ⟨i, t, ended, ht, hn, hw, hreply⟩
  · obtain ⟨m, -, hm⟩ := Option.bind_eq_some_iff.mp hr
    exact absurd (he ▸ hm) Message.refusal?_ne_code
  · refine ⟨i, t, ended, ht, hn, hw, ?_, fun k u hu hk => ?_⟩
    · obtain ⟨e, hout, hcode⟩ := Frame.outcome_of_reply (hreply ▸ he)
      obtain ⟨error, rfl⟩ := PipelineError.code_eq_invalid hcode
      obtain ⟨found, n, -, hover⟩ := (h.sound.tasks i t ht).along _ hw
      have hg : ended.Gated server.engine.registry t.job.request := by
        have hafter := Progress.gated_after server.engine t.job found n
        rwa [← hover] at hafter
      exact (hg.trace.barred error ((hg.invalid_iff error).mp hout)).1
    · exact h.numbered.unique ht hu (hk.trans hn.symm)

end Connection

/-- A run is refused exactly as the checks of its request tell, whatever its payload, its options
and the world; then no tool is called and nothing is recorded. A run that passes the checks calls
tools of its plugin and is not refused any more. A request that is blamed for its answer, over HTTP
or on a socket, has had no tool called. -/
theorem validation_gates_runs :
    (∀ (e : Engine) (runId : String) (request : Request) (o : Options) (offered : Nat) (w : World),
      (e.run runId request o offered w).1.Gated e.registry request) ∧
    (∀ (e : Engine) (pluginId : String) (tools : List String) (error : ValidationError),
      validate e.registry pluginId tools = .error error →
      ∀ (runId : String) (payload : Payload) (o : Options) (t : Trail),
        e.run runId ⟨pluginId, tools, payload⟩ o t.offered t.world =
          (⟨.error (.invalid error), .rejected, t.offered,
            [.moved .validating .rejected, .rejected error]⟩, t.world) ∧
        (e.runNext runId ⟨pluginId, tools, payload⟩ o t).2 = t) ∧
    (∀ (registry : Registry) (pluginId : String) (tools : List String) (p : Plugin),
      validate registry pluginId tools = .ok p →
      ∀ (c : RunContext) (r : Run) (w : World),
        Run.execute c tools r w = Run.through c tools r w) ∧
    (∀ (e : Engine) (j : Job) (found : Nat → Nat × World) (n : Nat),
      (Progress.after e j found n).trace.Gated e.registry j.request ∧
      ∀ ended, Progress.after e j found n = .over ended →
        ended.Gated e.registry j.request) ∧
    (∀ (s t : Session) (names : RunNames) (patience : Option Nat) (r : Http.Request)
      (response : Http.Response),
      s.request names patience r = (some response, t) → response.BlamesRequest → s.Idle t) ∧
    (∀ (server : Server) (w : World) (t : Traffic), t.Reachable server w →
      ∀ (n : Nat) (r : RestRun) (response : Http.Response), t.requests[n]? = some r →
        r.handler = .answered response → response.BlamesRequest →
        ∃ ended, r.worker = .over ended ∧ ended.trace.invocations = []) ∧
    (∀ (server : Server) (token : Token) (slots : Nat) (c : Connection) (w : World),
      Connection.Reachable server token slots c w →
      ∀ o ∈ c.replies, ∀ frameId message,
        o.2 = .error frameId message (some "INVALID_PIPELINE") →
        ∃ (i : Nat) (t : FrameTask) (ended : Ended), c.tasks[i]? = some t ∧ t.message = o.1 ∧
          t.worker = some (.over ended) ∧ ended.trace.invocations = [] ∧
          ∀ k u, c.tasks[k]? = some u → u.message = o.1 → k = i) := by
  refine ⟨Engine.run_gated, ?_, ?_, ?_, ?_, ?_, ?_⟩
  · intro e pluginId tools error hv runId payload o t
    have hrun : e.run runId ⟨pluginId, tools, payload⟩ o t.offered t.world = _ :=
      Engine.run_of_invalid hv runId o t.offered t.world
    rw [Engine.reject_start] at hrun
    refine ⟨hrun, ?_⟩
    simp [Engine.runNext, hrun, Engine.keptOf, Trace.records]
  · intro registry pluginId tools p hv c r w
    simp only [Run.execute, ne_nil_of_validate hv, if_false]
  · intro e j found n
    have hg := Progress.gated_after e j found n
    refine ⟨hg.trace, fun ended he => ?_⟩
    rwa [he] at hg
  · intro s t names patience r response h hb
    exact Session.request_idle h hb
  · intro server w t h n r response hr ha hb
    exact (h.gated n r hr).barred ha hb
  · intro server token slots c w h o ho frameId message he
    exact h.barred ho he

def barredActions : List ConnectionAction :=
  [.receive (.text tracedFrame), .acquire 0, .work 0, .release 0, .enqueueReply 0, .write]

/-- A request with an unknown tool at its end calls none of its tools, though its token is cancelled
and its deadline is past. A request for a plugin that is not there is blamed over HTTP and on a
socket. -/
theorem validation_gates_runs_unknown :
    let e : Engine := ⟨Registry.empty.register DebugTools.plugin, .memory⟩
    let bare : Server := ⟨⟨Registry.empty, .memory⟩, .default⟩
    let o := (Options.default.withCancel [7]).withDeadline 0
    let t : Trail := .start { World.initial with fired := [[7]] }
    let j : Job := ⟨"r", ⟨"debug", ["echo", "echo"], .empty⟩, .default, 0⟩
    let found : Nat → Nat × World := fun _ => (0, .initial)
    let s := Session.start bare .initial
    let x := s.request ⟨"r", "1"⟩ none tracedPost
    let c := ((Connection.start [7] 4).follow bare .initial barredActions).getD
      (.start [7] 4, .initial)
    (e.runNext "r" ⟨"debug", ["echo", "nope"], .empty⟩ o t).1.outcome =
      .error (.invalid (.unknownTool "debug" "nope" 1)) ∧
    (e.runNext "r" ⟨"debug", ["echo", "nope"], .empty⟩ o t).2 = t ∧
    (∃ ended, Progress.after e j found 6 = .over ended ∧ ended.trace.invocations.length = 2 ∧
      ∀ i ∈ ended.trace.invocations, ∃ tool, DebugTools.plugin.tool? i.tool = some tool) ∧
    (∃ response, x.1 = some response ∧ response.status = 400 ∧ s.Idle x.2) ∧
    ∃ message, c.1.sent = [(0, .error "f" message (some "INVALID_PIPELINE"))] ∧
      ∃ (i : Nat) (task : FrameTask) (ended : Ended), c.1.tasks[i]? = some task ∧
        task.message = 0 ∧ task.worker = some (.over ended) ∧ ended.trace.invocations = [] := by
  intro e bare o t j found s x c
  have hv : validate e.registry "debug" ["echo", "nope"] =
      .error (.unknownTool "debug" "nope" 1) := by rfl
  have hok : validate e.registry "debug" ["echo", "echo"] = .ok DebugTools.plugin := by rfl
  have hread : Rest.readBody bare.config.maxMessageSize.toNat tracedPost = .ok tracedRequest := by
    have htyped : Rest.isJsonTyped tracedPost = true := by decide +kernel
    have hshort : ¬ bare.config.maxMessageSize.toNat < tracedPost.body.length := by decide +kernel
    have hoctets : Rest.readOctets tracedPost.body = .ok tracedRequest := by rfl
    simp [Rest.readBody, htyped, hshort, hoctets]
  have hx : x.1 = some (Router.finish "POST" (Rest.post bare (s.attempt ⟨"r", "1"⟩) tracedPost
      .initial).response) := by rfl
  have hstatus : (Router.finish "POST" (Rest.post bare (s.attempt ⟨"r", "1"⟩) tracedPost
      .initial).response).status = 400 := by
    rw [Session.finish_status, Rest.post_response hread]
    rfl
  have hfollow : (Connection.start [7] 4).follow bare .initial barredActions = some c := by rfl
  have hr : Connection.Reachable bare [7] 4 c.1 c.2 :=
    (Connection.Reachable.start _).follow hfollow
  obtain ⟨-, hbarred, -, hstep, hsession, -, hsocket⟩ := validation_gates_runs
  obtain ⟨hrun, htrail⟩ := hbarred e "debug" ["echo", "nope"] _ hv "r" .empty o t
  refine ⟨congrArg (fun r => r.1.outcome) hrun, htrail, ?_, ?_, ?_⟩
  · obtain ⟨ended, he⟩ : ∃ ended, Progress.after e j found 6 = .over ended := ⟨_, rfl⟩
    have hlen : (Progress.after e j found 6).trace.invocations.length = 2 := by rfl
    rw [he] at hlen
    refine ⟨ended, he, hlen, fun i hi => ?_⟩
    obtain ⟨tool, ht, -⟩ := ((hstep e j found 6).2 ended he).trace.dispatched _ hok i hi
    exact ⟨tool, ht⟩
  · refine ⟨_, hx, hstatus, ?_⟩
    exact hsession s x.2 ⟨"r", "1"⟩ none tracedPost _ (Prod.ext hx rfl)
      ⟨by omega, by omega⟩
  · obtain ⟨message, hsent⟩ : ∃ message,
        c.1.sent = [(0, .error "f" message (some "INVALID_PIPELINE"))] := ⟨_, rfl⟩
    have hmem : (0, .error "f" message (some "INVALID_PIPELINE")) ∈ c.1.replies := by
      simp [Connection.replies, Connection.line, hsent]
    obtain ⟨i, task, ended, ht, hn, hw, hnone, -⟩ :=
      hsocket bare [7] 4 c.1 c.2 hr _ hmem "f" message rfl
    exact ⟨message, hsent, i, task, ended, ht, hn, hw, hnone⟩

end ToolPipeline
