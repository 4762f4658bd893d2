import ToolPipeline.Command.Run
import ToolPipeline.Proofs.Json.TypedReading
import ToolPipeline.Proofs.Pipeline.Steady
import ToolPipeline.Proofs.Server.AnswerTexts
import ToolPipeline.Proofs.Server.FrameGrammar

/-! One request in three forms: the body of an HTTP request, a frame on a socket, and a payload on
the command line. They meet at the same run and are answered alike. -/

namespace ToolPipeline

open Json

namespace Request

def body (r : Request) : Object :=
  ((Object.empty.insert "plugin_id" (.string r.pluginId)).insert "tools"
    (.array (r.tools.map .string))).insert "payload" (.object r.payload)

/-- The object that spells a request in a frame, with the payload spread over it. -/
def frame (r : Request) : Object :=
  ((r.payload.insert "type" (.string "frame")).insert "plugin_id" (.string r.pluginId)).insert
    "tools" (.array (r.tools.map .string))

/-- The payload can be sent in a frame of this id. -/
structure Framed (r : Request) (frameId : String) : Prop where
  named : r.payload.get? "frame_id" = some (.string frameId)
  named_ne : frameId ≠ ""
  type : r.payload.get? "type" = none
  pluginId : r.payload.get? "plugin_id" = none
  tools : r.payload.get? "tools" = none
  tools_ne : r.tools ≠ []

end Request

section
variable {r : Request}

theorem Request.parsePieces_body {s : List Piece} {v : Value}
    (h : Request.shape.parsePieces s = .ok v) (ho : Json.parsePieces s = .ok (.object r.body)) :
    v = .object r.body := by
  refine parsePieces_record_eq (fun depth field hf s p hp => ?_) (fun depth key => ?_) h ho
  · simp only [Fields.readers, List.mem_cons, List.not_mem_nil, or_false] at hf
    rcases hf with rfl | rfl | rfl
    · exact Shape.Plain.string.readValue_of_read hp
    · exact (Shape.Plain.list .string).readValue_of_read hp
    · exact Shape.Plain.object.readValue_of_read hp
  · simp only [Fields.readers, Request.body, Object.get?_insert, Object.get?_empty]
    by_cases h₁ : key = "plugin_id"
    · simp [h₁]
    · by_cases h₂ : key = "tools"
      · simp [h₂]
      · by_cases h₃ : key = "payload"
        · simp [h₃]
        · simp [h₁, h₂, h₃, Ne.symm h₁, Ne.symm h₂, Ne.symm h₃]

theorem Request.ofValue_body (r : Request) : Request.ofValue (.object r.body) = r := by
  have hplugin : textField r.body "plugin_id" = r.pluginId :=
    textField_of_get? (by simp [Request.body, Object.get?_insert])
  have htools : textsField r.body "tools" = r.tools :=
    textsField_of_get? (by simp [Request.body, Object.get?_insert])
  have hpayload : objectField r.body "payload" = r.payload := by simp [objectField, Request.body]
  simp [Request.ofValue, hplugin, htools, hpayload]

theorem Rest.readBody_body {limit : Nat} {http : Http.Request} {read : Request}
    (h : Rest.readBody limit http = .ok read)
    (ho : Json.parsePieces (Piece.ofOctets http.body) = .ok (.object r.body)) : read = r := by
  unfold Rest.readBody at h
  split at h
  · cases h
  · split at h
    · cases h
    · unfold Rest.readOctets at h
      split at h
      · next v hv =>
        obtain rfl := Request.parsePieces_body hv ho
        cases h
        exact Request.ofValue_body r
      · cases h

theorem Frame.parse_frame {frameId s : String} (hf : r.Framed frameId)
    (hs : Json.parse s = .ok (.object r.frame)) : Frame.parse s = .ok ⟨frameId, r⟩ := by
  refine Frame.parse_of_spells hs ⟨?_, ?_, hf.named_ne, .inl ?_, ?_, hf.tools_ne, fun key => ?_⟩
  · simp [Request.frame, Object.get?_insert]
  · simp [Request.frame, Object.get?_insert, hf.named]
  · simp [Request.frame, Object.get?_insert]
  · simp [Request.frame]
  · simp only [Request.frame, Object.get?_insert, List.mem_cons, List.not_mem_nil, or_false]
    by_cases h₁ : key = "type"
    · simp [h₁, hf.type]
    · by_cases h₂ : key = "plugin_id"
      · simp [h₂, hf.pluginId]
      · by_cases h₃ : key = "tools"
        · simp [h₃, hf.tools]
        · simp [h₁, h₂, h₃]

theorem PayloadSource.parse_object {s : String} {payload : Payload}
    (h : Json.parse s = .ok (.object payload)) : PayloadSource.parse s = .ok payload := by
  simp [PayloadSource.parse, h]

theorem Rest.options_free {c : ServerConfig} {token : Token} {w : World}
    (hc : c.restTimeout = none) (ht : w.Spares token) : (Rest.options c token w.now).Free w := by
  simpa [Rest.options, hc, Options.Free, Options.withTimeout, Options.withCancel,
    Options.default] using ht

theorem Frame.options_free {c : ServerConfig} {token : Token} {w : World}
    (hc : c.frameTimeout = none) (ht : w.Spares token) (now : Nat) :
    (Frame.options c token now).Free w := by
  simpa [Frame.options, hc, Options.Free, Options.withTimeout, Options.withCancel,
    Options.withoutSteps, Options.default] using ht

theorem Options.default_free (w : World) : Options.default.Free w := by
  simp [Options.Free, Options.default]

variable {e : Engine} {c : ServerConfig}

theorem Rest.post_response {http : Http.Request}
    (h : Rest.readBody c.maxMessageSize.toNat http = .ok r) (a : Attempt) (w : World) :
    (Rest.post ⟨e, c⟩ a http w).response = Rest.respond a.names.worker
      (e.run a.names.runId r (Rest.options c a.token w.now) a.offered w).1.outcome := by
  simp [Rest.post, h]

theorem Frame.answer_eq {frameId s : String} (h : Frame.parse s = .ok ⟨frameId, r⟩)
    (runId : String) (o : Options) (w : World) :
    Frame.answer e runId o w s =
      Frame.reply ⟨frameId, r⟩ (e.run runId r o 0 w).1.outcome := by
  simp [Frame.answer, Frame.read, h, mapError_ok]

end

/-- A response over HTTP, a reply on a socket and the end of a command say the same of a request:
its result, with the outputs of its steps where they are given, or its error. Their texts spell
objects with just that. -/
inductive SameAnswer (frameId : String) (tools : List String) (http : Http.Response)
    (reply : Reply) (single : Except CommandError RunResult) : Prop where
  | result (payload : Payload) (steps : List StepOutput) :
    steps.map StepOutput.tool = tools →
    http = .json 200 (RunResult.toJson ⟨payload, steps⟩) →
    reply = .result frameId payload →
    single = .ok ⟨payload, steps⟩ →
    http.status = 200 → ("content-type", "application/json") ∈ http.headers →
    Conveys http.body ((Object.empty.insert "result" (.object payload)).insert "steps"
      (.array (steps.map fun s => .object
        ((Object.empty.insert "tool" (.string s.tool)).insert "output" (.object s.output))))) →
    Conveys reply.text
      ((Object.empty.insert "frame_id" (.string frameId)).insert "result" (.object payload)) →
    SameAnswer frameId tools http reply single
  | error (status : Nat) (code message : String) (e : CommandError) :
    http = (ApiError.response ⟨status, code, message⟩) →
    reply = .error frameId message (some code) →
    single = .error e → e.message = message ++ " (" ++ code ++ ")" → e.cause? = none →
    http.status = status → 400 ≤ status → ("content-type", "application/json") ∈ http.headers →
    Json.parse http.body = .ok (.object (Object.empty.insert "error"
      (.object ((Object.empty.insert "code" (.string code)).insert "message" (.string message))))) →
    Json.parse reply.text = .ok (.object ((((Object.empty.insert "type" (.string "error")).insert
      "message" (.string message)).insert "frame_id" (.string frameId)).insert "code"
        (.string code))) →
    SameAnswer frameId tools http reply single

theorem SameAnswer.of_result {frameId : String} {payload : Payload} {steps : List StepOutput} :
    SameAnswer frameId (steps.map StepOutput.tool) (.json 200 (RunResult.toJson ⟨payload, steps⟩))
      (.result frameId payload) (.ok ⟨payload, steps⟩) :=
  .result payload steps rfl rfl rfl rfl rfl List.mem_cons_self
    (conveys_compact (RunResult.hold_toJson ⟨payload, steps⟩))
    (conveys_compact (Reply.hold_toJson (.result frameId payload)))

theorem ApiError.le_statusOf (e : PipelineError) : 400 ≤ statusOf e := by
  cases e with
  | cancelled step reason => cases reason <;> simp [statusOf]
  | _ => simp [statusOf]

theorem SameAnswer.of_error {frameId : String} {tools : List String} (e : PipelineError) :
    SameAnswer frameId tools (ApiError.ofPipeline e).response
      (.error frameId e.message (some e.code)) (.error (.pipeline e)) :=
  .error (ApiError.statusOf e) e.code e.message (.pipeline e) rfl rfl rfl rfl rfl rfl
    (ApiError.le_statusOf e) List.mem_cons_self (ApiError.ofPipeline e).parse_response
    (Reply.parse_error frameId e.message e.code)

/-- For steady tools and without time limits, a request gets the same answer over HTTP, on a socket
and from the command line, in whatever worlds it arrives there and however its texts are spelled. -/
theorem transports_agree (e : Engine) (c : ServerConfig) (r : Request) (frameId : String)
    (he : e.registry.Steady) (hrest : c.restTimeout = none) (hframe : c.frameTimeout = none)
    (hf : r.Framed frameId) (hlen : Indexable r.tools)
    (http : Http.Request) (a : Attempt) (w₁ : World)
    (hbody : Json.parsePieces (Piece.ofOctets http.body) = .ok (.object r.body))
    (haccepted : ∃ read, Rest.readBody c.maxMessageSize.toNat http = .ok read)
    (hspared₁ : w₁.Spares a.token)
    (text runId₂ : String) (token : Token) (now : Nat) (w₂ : World)
    (htext : Json.parse text = .ok (.object r.frame)) (hspared₂ : w₂.Spares token)
    (payload runId₃ : String) (w₃ : World)
    (hpayload : Json.parse payload = .ok (.object r.payload)) :
    SameAnswer frameId r.tools (Rest.post ⟨e, c⟩ a http w₁).response
      (Frame.answer e runId₂ (Frame.options c token now) w₂ text)
      (PayloadSource.parse payload >>= fun p =>
        (SingleRun.perform e none runId₃ ⟨r.pluginId, r.tools, p⟩ w₃).result) := by
  obtain ⟨read, hread⟩ := haccepted
  obtain rfl := (Rest.readBody_body hread hbody).symm
  have ho₁ := Engine.run_settled he hlen (Rest.options_free hrest hspared₁) a.names.runId a.offered
  have ho₂ := Engine.run_settled he hlen (Frame.options_free hframe hspared₂ now) runId₂ 0
  have ho₃ := Engine.run_settled he hlen (Options.default_free w₃) runId₃ 0
  have hd₁ : (Rest.options c a.token w₁.now).discardSteps = false := by
    simp [Rest.options, hrest, Options.withTimeout, Options.withCancel, Options.default]
  have hd₂ : (Frame.options c token now).discardSteps = true := by
    simp [Frame.options, Options.withoutSteps]
  have hsingle : ((Except.ok r.payload : Except CommandError Payload) >>= fun p =>
      (SingleRun.perform e none runId₃ ⟨r.pluginId, r.tools, p⟩ w₃).result) =
        SingleRun.settle (e.settled r false) := congrArg SingleRun.settle ho₃
  rw [Rest.post_response hread, Frame.answer_eq (Frame.parse_frame hf htext),
    PayloadSource.parse_object hpayload, hsingle, ho₁, ho₂, hd₁, hd₂]
  rcases Engine.settled_cases he r with ⟨result, steps, hsteps, hs⟩ | ⟨error, hs⟩
  · rw [hs, hs, ← hsteps]
    exact .of_result
  · rw [hs, hs]
    exact .of_error error

def tracedRequest : Request :=
  ⟨"debug", ["trace"], Object.empty.insert "frame_id" (.string "f")⟩

def tracedPost : Http.Request :=
  let body := "\x7b\"plugin_id\":\"debug\",\"tools\":[\"trace\"],"
    ++ "\"payload\":\x7b\"frame_id\":\"f\"\x7d\x7d"
  ⟨"POST", "/pipeline", [("content-type", "application/json")],
    body.toList.map fun c => UInt8.ofNat c.toNat⟩

def tracedFrame : String :=
  "\x7b\"type\":\"frame\",\"plugin_id\":\"debug\",\"tools\":[\"trace\"],\"frame_id\":\"f\"\x7d"

def tracedPayload : String := "\x7b\"frame_id\":\"f\"\x7d"

/-- With the plugin the answer is a result, without it an error. -/
theorem transports_agree_traced :
    let e : Engine := ⟨Registry.empty.register DebugTools.plugin, .memory⟩
    let bare : Engine := ⟨.empty, .memory⟩
    let c : ServerConfig := { ServerConfig.default with restTimeout := none, frameTimeout := none }
    let a : Attempt := ⟨[1], ⟨"r", "1"⟩, 0⟩
    let post (e : Engine) : Http.Response := (Rest.post ⟨e, c⟩ a tracedPost .initial).response
    let answer (e : Engine) : Reply :=
      Frame.answer e "s" (Frame.options c [2] 0) .initial tracedFrame
    let single (e : Engine) : Except CommandError RunResult :=
      PayloadSource.parse tracedPayload >>= fun p =>
        (SingleRun.perform e none "t" ⟨"debug", ["trace"], p⟩ .initial).result
    e.registry.Steady ∧ bare.registry.Steady ∧ tracedRequest.Framed "f" ∧
    Indexable tracedRequest.tools ∧
    Json.parsePieces (Piece.ofOctets tracedPost.body) = .ok (.object tracedRequest.body) ∧
    Rest.readBody c.maxMessageSize.toNat tracedPost = .ok tracedRequest ∧
    Json.parse tracedFrame = .ok (.object tracedRequest.frame) ∧
    Json.parse tracedPayload = .ok (.object tracedRequest.payload) ∧
    SameAnswer "f" ["trace"] (post e) (answer e) (single e) ∧
    (post e).body = "\x7b\"result\":\x7b\"frame_id\":\"f\",\"trace\":[\"trace\"]\x7d,"
      ++ "\"steps\":[\x7b\"tool\":\"trace\","
      ++ "\"output\":\x7b\"frame_id\":\"f\",\"trace\":[\"trace\"]\x7d\x7d]\x7d" ∧
    (answer e).text =
      "\x7b\"frame_id\":\"f\",\"result\":\x7b\"frame_id\":\"f\",\"trace\":[\"trace\"]\x7d\x7d" ∧
    SameAnswer "f" ["trace"] (post bare) (answer bare) (single bare) ∧
    (post bare).status = 400 ∧
    (post bare).body = "\x7b\"error\":\x7b\"code\":\"INVALID_PIPELINE\","
      ++ "\"message\":\"invalid pipeline: unknown plugin: debug\"\x7d\x7d" := by
  intro e bare c a post answer single
  have he : e.registry.Steady := Registry.empty_steady.register DebugTools.plugin_steady
  have hbare : bare.registry.Steady := Registry.empty_steady
  have hf : tracedRequest.Framed "f" := ⟨rfl, by decide, rfl, rfl, rfl, by decide⟩
  have hlen : Indexable tracedRequest.tools := by decide
  have hbody : Json.parsePieces (Piece.ofOctets tracedPost.body) =
      .ok (.object tracedRequest.body) := by rfl
  have hread : Rest.readBody c.maxMessageSize.toNat tracedPost = .ok tracedRequest := by
    have htyped : Rest.isJsonTyped tracedPost = true := by decide +kernel
    have hshort : ¬ c.maxMessageSize.toNat < tracedPost.body.length := by decide +kernel
    have hoctets : Rest.readOctets tracedPost.body = .ok tracedRequest := by rfl
    simp [Rest.readBody, htyped, hshort, hoctets]
  have htext : Json.parse tracedFrame = .ok (.object tracedRequest.frame) := by rfl
  have hpayload : Json.parse tracedPayload = .ok (.object tracedRequest.payload) := by rfl
  have hagree (e : Engine) (he : e.registry.Steady) :
      SameAnswer "f" ["trace"] (post e) (answer e) (single e) :=
    transports_agree e c tracedRequest "f" he rfl rfl hf hlen tracedPost a .initial hbody
      ⟨_, hread⟩ rfl tracedFrame "s" [2] 0 .initial htext rfl tracedPayload "t" .initial hpayload
  exact ⟨he, hbare, hf, hlen, hbody, hread, htext, hpayload, hagree e he, by decide +kernel,
    by decide +kernel, hagree bare hbare, by decide +kernel, by decide +kernel⟩

end ToolPipeline
