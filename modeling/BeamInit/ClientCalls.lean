import BeamInit.ClientUrls
import BeamInit.Subscriptions

/-! # Client calls — a call of the client is an operation of the manager

    A method of the blocking client makes a request, the server puts an event on
    the channel and turns its reply into a response, and the client reads the
    response back.  The two sides agree: what comes out of the call is what the
    manager answered, or the manager's error with its own status and text.  What
    comes between them, a connection that fails or a timeout, is the client's own
    error, and says nothing about what the manager did. -/

namespace BeamClientCalls

open BeamApi BeamOs BeamLogs BeamService BeamManager BeamCommands BeamMainLoop BeamRoutes BeamOperations
open BeamClientUrls BeamSubscriptions BeamConsistency UrlPath Broadcast

/-! ## JSON -/

/-- `VersionResponse`. -/
structure VersionResponse where
  version : String
  sha : String
deriving DecidableEq

/-- The values that the responses carry as JSON. -/
inductive Value where
  | config (service : CreateService)
  | unit
  | service (service : ApiService)
  | services (services : BTreeMap String ApiServiceStatus)
  | status (status : ApiServiceStatus)
  | version (version : VersionResponse)
deriving DecidableEq

inductive ValueType where
  | config
  | unit
  | service
  | services
  | status
  | version
deriving DecidableEq

def Value.type : Value → ValueType
  | .config _ => .config
  | .unit => .unit
  | .service _ => .service
  | .services _ => .services
  | .status _ => .status
  | .version _ => .version

/-- The JSON library on the two sides. -/
structure Json where
  encode : Value → String
  decode : ValueType → String → Except String Value

/-- What was serialised is deserialised, at its own type. -/
def Json.Lossless (json : Json) (value : Value) : Prop :=
  json.decode value.type (json.encode value) = .ok value

/-! ## The response -/

inductive Payload where
  | full (text : String)
  /-- A stream over the log queue, which does not end. -/
  | stream (queue : RingBuffer)
deriving DecidableEq

structure HttpResponse where
  status : Nat
  body : Payload

def errorResponse (e : ServiceError) : HttpResponse := ⟨e.intoResponse.1, .full e.intoResponse.2⟩

section Server

variable (json : Json)

/-- `Json(value).into_response()`. -/
def jsonResponse (value : Value) : HttpResponse := ⟨200, .full (json.encode value)⟩

def okResponse : Response → HttpResponse
  | .created service => jsonResponse json (.config service)
  | .done => jsonResponse json .unit
  | .service service => jsonResponse json (.service service)
  | .services services => jsonResponse json (.services services)
  | .logs text => ⟨200, .full text⟩
  | .logStream queue => ⟨200, .stream queue⟩

/-- What a handler makes of the reply to its event.  `wait_service` goes on with
    what its subscription has returned so far, and has no response before its loop
    has one. -/
def respond (observed : List (Except RecvError ApiServiceStatus)) :
    ClientRequest → Reply → Option HttpResponse
  | .waitService _ statusKind, .subscription (.ok _) =>
      (waitLoop statusKind observed).map (fun ended =>
        match ended with
        | .ok s => jsonResponse json (.status s)
        | .error e => errorResponse e)
  | _, .subscription (.error e) => some (errorResponse e)
  | _, .response (.ok response) => some (okResponse json response)
  | _, .response (.error e) => some (errorResponse e)
  | _, _ => none

end Server

/-! ## The client -/

/-- The methods of the client that send a request. -/
inductive Call where
  | named (op : Operation) (name : String)
  | listServices
  | version

def Call.request : Call → Request
  | .named op name => op.request name
  | .listServices => ⟨.get, "/services", .empty⟩
  | .version => ⟨.get, "/version", .empty⟩

/-- The handler of a call. -/
def Call.handled : Call → ClientRequest
  | .named op name => op.handled name
  | .listServices => .listServices
  | .version => .version

/-- What a method reads out of a successful response. -/
inductive Wanted where
  | json (type : ValueType)
  | text
  | reader
deriving DecidableEq

def Call.wants : Call → Wanted
  | .named (.createService _) _ => .json .config
  | .named .showService _ => .json .service
  | .named (.waitServiceState _) _ => .json .status
  | .named .logs _ => .text
  | .named .followLogs _ => .reader
  | .named _ _ => .json .unit
  | .listServices => .json .services
  | .version => .json .version

/-- The timeout of a method, in milliseconds; `wait_service_state` is passed its own. -/
def Call.timeout (waitTimeout : Option Nat) : Call → Option Nat
  | .named (.waitServiceState _) _ => waitTimeout
  | .named .followLogs _ => none
  | _ => some 30000

/-- How an exchange goes beside what the server does. -/
structure Exchange where
  /-- Why the request did not get to the server, if so. -/
  unsent : Option String
  /-- The milliseconds until the head of the response and all of its body are there,
      or how the connection failed before. -/
  head : Except String Nat
  body : Except String Nat
  waitTimeout : Option Nat
  /-- The text of a timeout. -/
  timedOut : String

/-- What has arrived in time. -/
def Exchange.arrived (x : Exchange) (c : Call) (part : Except String Nat) : Except String Unit :=
  match part, c.timeout x.waitTimeout with
  | .error error, _ => .error error
  | .ok time, some timeout => if time ≤ timeout then .ok () else .error x.timedOut
  | .ok _, none => .ok ()

/-- The errors of the client once it is created. -/
inductive ClientError where
  | transport (text : String)
  | decode (text : String)
  | response (status : Nat) (body : String)
deriving DecidableEq

inductive Answer where
  | value (value : Value)
  | text (text : String)
  | reader (body : Payload)
deriving DecidableEq

/-- What `send` and the method do with a response whose head has arrived; `none`
    where it reads a stream to its end. -/
def receive (json : Json) (wanted : Wanted) (body : Except String Unit)
    (response : HttpResponse) : Option (Except ClientError Answer) :=
  if 400 ≤ response.status ∧ response.status < 600 then
    match response.body, body with
    | .full text, .ok () => some (.error (.response response.status text))
    -- `resp.text().unwrap_or_else(|e| e.to_string())`
    | .full _, .error error => some (.error (.response response.status error))
    | .stream _, _ => none
  else
    match wanted, response.body, body with
    | .json type, .full text, .ok () =>
        match json.decode type text with
        | .ok value => some (.ok (.value value))
        | .error text => some (.error (.decode text))
    | .text, .full text, .ok () => some (.ok (.text text))
    -- the reader is returned before the body is there
    | .reader, payload, _ => some (.ok (.reader payload))
    | _, .full _, .error error => some (.error (.decode error))
    | _, .stream _, _ => none

/-! ## A call -/

/-- The libraries between the two sides, the refusals of a request without a
    handler and of a body that is too long, and the version of the server. -/
structure Link where
  stack : HttpStack
  json : Json
  refusal : HttpResponse
  version : VersionResponse
  /-- The length of a body as JSON. -/
  bodyLength : Body → Nat
  tooLong : String

/-- `axum`'s default limit for a body that a handler extracts. -/
def bodyLimit : Nat := 2 * 1024 * 1024

/-- The handlers that extract a `Json` body. -/
def takesBody : ClientRequest → Bool
  | .createService _ _ | .sendSignal _ _ => true
  | _ => false

def Link.refuses (link : Link) (handled : ClientRequest) (body : Body) : Bool :=
  takesBody handled && decide (bodyLimit < link.bodyLength body)

section Calls

variable (link : Link) (os : Os) (m : Machine) (credentials : Credentials)
  (observed : List (Except RecvError ApiServiceStatus))

/-- What the server does with a request. -/
def serve (request : Request) : Except Panic (Outcome (Option HttpResponse)) :=
  match served link.stack request with
  | none => .ok (some link.refusal, m)
  | some .version => .ok (some (jsonResponse link.json (.version link.version)), m)
  | some handled =>
      if link.refuses handled request.body then .ok (some ⟨413, .full link.tooLong⟩, m)
      else
        match handled.event credentials with
        | none => .ok (none, m)
        | some event => do
            let (reply, m) ← handleEvent os m event
            return (respond link.json observed handled reply, m)

/-- A call returns once the response is there, or it gives up; the server handles
    a request whether or not it is still waited for. -/
def call (x : Exchange) (c : Call) :
    Except Panic (Outcome (Option (Except ClientError Answer))) :=
  match x.unsent with
  | some error => .ok (some (.error (.transport error)), m)
  | none => do
      let (response, m) ← serve link os m credentials observed c.request
      match x.arrived c x.head with
      | .error error => return (some (.error (.transport error)), m)
      | .ok () => return (response.bind (receive link.json c.wants (x.arrived c x.body)), m)

end Calls

/-! ## What the manager answers -/

def answerOf : Response → Answer
  | .created service => .value (.config service)
  | .done => .value .unit
  | .service service => .value (.service service)
  | .services services => .value (.services services)
  | .logs text => .text text
  | .logStream queue => .reader (.stream queue)

/-- The answer of the manager to the event of a request. -/
def answered (observed : List (Except RecvError ApiServiceStatus)) :
    ClientRequest → Reply → Option (Except ServiceError Answer)
  | .waitService _ statusKind, .subscription (.ok _) =>
      (waitLoop statusKind observed).map (Except.map (fun s => .value (.status s)))
  | _, .subscription (.error e) => some (.error e)
  | _, .response result => some (result.map answerOf)
  | _, _ => none

/-- An error of the manager, as the client has it. -/
def asClientError (e : ServiceError) : ClientError :=
  .response e.intoResponse.1 e.intoResponse.2

/-- What the client makes of an answer whose body does not arrive. -/
def cutOff (error : String) : Except ServiceError Answer → Except ClientError Answer
  | .error e => .error (.response e.intoResponse.1 error)
  | .ok (.reader body) => .ok (.reader body)
  | .ok _ => .error (.decode error)

/-- What the client makes of an answer, by what has arrived of the body. -/
def read : Except String Unit → Except ServiceError Answer → Except ClientError Answer
  | .ok () => Except.mapError asClientError
  | .error error => cutOff error

/-! ## The two sides agree -/

/-- What a response is to be read as. -/
def wantedFor : Response → Wanted
  | .created _ => .json .config
  | .done => .json .unit
  | .service _ => .json .service
  | .services _ => .json .services
  | .logs _ => .text
  | .logStream _ => .reader

/-- The replies the handler of a call can get. -/
inductive Fits : Call → Reply → Prop where
  | error {c : Call} (e : ServiceError) : Fits c (.response (.error e))
  | ok {c : Call} {r : Response} : wantedFor r = c.wants → Fits c (.response (.ok r))
  | subscription {stateKind : ServiceStatusKind} {name : String}
      (result : Except ServiceError BeamPublisher.ServiceStatusSubscription) :
      Fits (.named (.waitServiceState stateKind) name) (.subscription result)

/-- A unit result is answered with `Json(())`. -/
theorem fits_done {c : Call} (hc : c.wants = .json .unit)
    {x : Except Panic (Outcome (Except ServiceError Unit))} {reply : Reply} {m' : Machine}
    (h : (do let (result, m) ← (do return answerDone (← x)); return (.response result, m))
      = (.ok (reply, m') : Except Panic (Outcome Reply))) : Fits c reply := by
  obtain ⟨⟨result, m₁⟩, hdone, h⟩ := bind_eq_ok.mp h
  cases h
  obtain ⟨⟨unit, m₂⟩, -, hdone⟩ := bind_eq_ok.mp hdone
  cases hdone
  cases unit with
  | error e => exact .error e
  | ok _ => exact .ok hc.symm

theorem reply_fits {os : Os} {m m' : Machine} {credentials : Credentials} {c : Call}
    {event : Event} {reply : Reply} (hevent : c.handled.event credentials = some event)
    (h : handleEvent os m event = .ok (reply, m')) : Fits c reply := by
  cases c with
  | version => cases hevent
  | listServices =>
      cases hevent
      obtain ⟨⟨result, m₁⟩, hcmd, h⟩ := bind_eq_ok.mp h
      cases h
      obtain ⟨services, -, hcmd⟩ := bind_eq_ok.mp hcmd
      cases hcmd
      exact .ok rfl
  | named op name =>
      cases op with
      | stopService prune =>
          cases prune <;> cases hevent <;> exact fits_done rfl h
      | restartService | freezeService | thawService | notifyPtyAttached | notifyPtyDetached
      | sendSignal sig =>
          cases hevent
          exact fits_done rfl h
      | waitServiceState stateKind =>
          cases hevent
          cases h
          exact .subscription _
      | createService service =>
          cases hevent
          obtain ⟨⟨result, m₁⟩, hcmd, h⟩ := bind_eq_ok.mp h
          cases h
          rw [handleApiCommand] at hcmd
          cases henv : serviceEnvironment os m credentials name service.env with
          | error e =>
              rw [henv] at hcmd
              cases hcmd
              exact .error e
          | ok env =>
              rw [henv] at hcmd
              dsimp only at hcmd
              cases hcreate : createService m name (requestedConfig service env credentials) with
              | mk created m₂ =>
                  rw [hcreate] at hcmd
                  cases created with
                  | error e =>
                      cases hcmd
                      exact .error e
                  | ok _ =>
                      obtain ⟨⟨started, m₃⟩, -, hcmd⟩ := bind_eq_ok.mp hcmd
                      cases hcmd
                      cases started with
                      | error e => exact .error e
                      | ok _ => exact .ok rfl
      | showService =>
          cases hevent
          obtain ⟨⟨result, m₁⟩, hcmd, h⟩ := bind_eq_ok.mp h
          cases h
          rw [handleApiCommand] at hcmd
          cases hget : getService m credentials name with
          | error e =>
              rw [hget] at hcmd
              cases hcmd
              exact .error e
          | ok s =>
              rw [hget] at hcmd
              obtain ⟨service, -, hcmd⟩ := bind_eq_ok.mp hcmd
              cases hcmd
              exact .ok rfl
      | logs =>
          cases hevent
          cases h
          cases copyLogs m credentials name with
          | error e => exact .error e
          | ok lines => exact .ok rfl
      | followLogs =>
          cases hevent
          cases h
          cases logReader m credentials name with
          | error e => exact .error e
          | ok queue => exact .ok rfl

/-- Every error of the manager has the status of an error. -/
theorem intoResponse_isError (e : ServiceError) :
    400 ≤ e.intoResponse.1 ∧ e.intoResponse.1 < 600 := by
  cases e <;> simp [ServiceError.intoResponse]

theorem receive_error (json : Json) (wanted : Wanted) (body : Except String Unit)
    (e : ServiceError) :
    receive json wanted body (errorResponse e) = some (read body (.error e)) := by
  cases body <;> exact if_pos (intoResponse_isError e)

theorem receive_json {json : Json} {value : Value} {body : Except String Unit}
    (h : body = .ok () → json.Lossless value) :
    receive json (.json value.type) body (jsonResponse json value)
      = some (read body (.ok (.value value))) := by
  have hstatus : ¬(400 ≤ 200 ∧ 200 < 600) := by decide
  refine (if_neg hstatus).trans ?_
  cases body with
  | error error => rfl
  | ok _ =>
      dsimp only [jsonResponse]
      rw [h rfl]
      rfl

/-- A response read as what it is. -/
theorem receive_ok {json : Json} {r : Response} {body : Except String Unit}
    (h : body = .ok () → ∀ value, answerOf r = .value value → json.Lossless value) :
    receive json (wantedFor r) body (okResponse json r) = some (read body (.ok (answerOf r))) := by
  cases r with
  | created _ | done | service _ | services _ => exact receive_json fun hbody => h hbody _ rfl
  | logs text => cases body <;> rfl
  | logStream queue => cases body <;> rfl

/-- **What the client reads is what the manager answered**, as far as it arrives. -/
theorem receive_respond {json : Json} {c : Call} {reply : Reply} (hfits : Fits c reply)
    {observed : List (Except RecvError ApiServiceStatus)} {body : Except String Unit}
    (h : body = .ok () → ∀ value, answered observed c.handled reply = some (.ok (.value value)) →
      json.Lossless value) :
    (respond json observed c.handled reply).bind (receive json c.wants body)
      = (answered observed c.handled reply).map (read body) := by
  have herror : ∀ e, receive json c.wants body (errorResponse e) = some (read body (.error e)) :=
    receive_error json c.wants body
  cases hfits with
  | error e =>
      have hrespond : respond json observed c.handled (.response (.error e))
          = some (errorResponse e) := by
        cases c.handled <;> rfl
      have hanswered : answered observed c.handled (.response (.error e)) = some (.error e) := by
        cases c.handled <;> rfl
      rw [hrespond, hanswered, Option.bind_some, herror]
      rfl
  | @ok _ r hwants =>
      have hrespond : respond json observed c.handled (.response (.ok r)) = some (okResponse json r) := by
        cases c.handled <;> rfl
      have hanswered : answered observed c.handled (.response (.ok r)) = some (.ok (answerOf r)) := by
        cases c.handled <;> rfl
      rw [hrespond, hanswered, Option.bind_some, ← hwants,
        receive_ok fun hbody value hvalue => h hbody value ?_]
      · rfl
      · rw [hanswered, hvalue]
  | @subscription stateKind name result =>
      cases result with
      | error e =>
          show (some (errorResponse e)).bind _ = _
          rw [Option.bind_some, herror]
          rfl
      | ok subscription =>
          show ((waitLoop stateKind observed).map _).bind _ = ((waitLoop stateKind observed).map _).map _
          cases hended : waitLoop stateKind observed with
          | none => rfl
          | some ended =>
              cases ended with
              | error e => exact herror e
              | ok s =>
                  refine receive_json fun hbody => h hbody (.status s) ?_
                  show (waitLoop stateKind observed).map _ = _
                  rw [hended]
                  rfl

/-! ## Reaching the handler -/

/-- The URL of the call leaves its name alone. -/
def Call.Clean : Call → Prop
  | .named op name => name ≠ "" ∧ Untouched op name
  | .listServices => True
  | .version => True

/-- The paths without a name are one plain segment. -/
theorem served_plain (root : String) {stack : HttpStack} {path querySet : EncodeSet}
    (hdoc : stack.Documented path querySet)
    (hkept : (toOsString root).all isKept = true)
    (hdots : toOsString root ∉ singleDots ∧ toOsString root ∉ doubleDots)
    (hpath : toOsString ("http://beam-init" ++ ("/" ++ root))
      = toOsString "http://beam-init/" ++ text [toOsString root] none) :
    served stack ⟨.get, "/" ++ root, .empty⟩
      = routed stack ⟨[toOsString root], none⟩ .get .empty := by
  have hall : ∀ b ∈ toOsString root, isKept b = true := List.all_eq_true.mp hkept
  have hplain : Plain [toOsString root] none := by
    refine ⟨List.cons_ne_nil _ _, fun s hs b hb => ?_, fun q hq => (nomatch hq), fun b hb => ?_⟩
    · rw [List.mem_singleton.mp hs] at hb
      exact (isKept_spec (hall b hb)).1
    · rw [text, List.intercalate_singleton, Option.map_none, Option.getD_none, List.append_nil] at hb
      exact (isKept_spec (hall b (List.mem_of_getLast? hb))).2.1
  rw [served]
  show (stack.parseUrl (toOsString ("http://beam-init" ++ ("/" ++ root)))).bind _ = _
  rw [hpath, hdoc.url, Option.bind_some, hplain.parse_text path querySet, List.map_singleton,
    percentEncode_of_isKept path hall]
  · rfl
  · intro s hs
    rw [List.mem_singleton.mp hs, percentEncode_of_isKept path hall]
    exact hdots

theorem served_call {stack : HttpStack} {path querySet : EncodeSet}
    (hdoc : stack.Documented path querySet) {c : Call} (hclean : c.Clean) :
    served stack c.request = some c.handled := by
  cases c with
  | named op name => exact hclean.2.reaches hdoc hclean.1
  | listServices =>
      refine (served_plain "services" hdoc (by decide +kernel) (by decide +kernel)
        (by decide +kernel)).trans ?_
      exact if_pos ⟨rfl, rfl⟩
  | version =>
      refine (served_plain "version" hdoc (by decide +kernel) (by decide +kernel)
        (by decide +kernel)).trans ?_
      have hother : ¬(toOsString "version" = toOsString "services" ∧ Method.get = .get) := by
        decide +kernel
      exact (if_neg hother).trans (if_pos ⟨rfl, rfl⟩)

theorem version_of_no_event {c : Call} {credentials : Credentials}
    (h : c.handled.event credentials = none) : c = .version := by
  cases c with
  | version => rfl
  | listServices => cases h
  | named op name =>
      cases op with
      | stopService prune => cases prune <;> cases h
      | _ => cases h

theorem serve_event {link : Link} {path querySet : EncodeSet}
    (hdoc : link.stack.Documented path querySet) {c : Call} (hclean : c.Clean) {os : Os}
    {m : Machine} {credentials : Credentials} {observed : List (Except RecvError ApiServiceStatus)}
    {event : Event} (hevent : c.handled.event credentials = some event)
    (hfits : link.refuses c.handled c.request.body = false) :
    serve link os m credentials observed c.request = (do
      let (reply, m) ← handleEvent os m event
      return (respond link.json observed c.handled reply, m)) := by
  rw [serve, served_call hdoc hclean]
  have hserved : ∀ {handled : ClientRequest}, c.handled = handled →
      handled.event credentials = some event →
      (if link.refuses handled c.request.body then
          (.ok (some ⟨413, .full link.tooLong⟩, m) : Except Panic (Outcome (Option HttpResponse)))
        else
          match handled.event credentials with
          | none => .ok (none, m)
          | some event => do
              let (reply, m) ← handleEvent os m event
              return (respond link.json observed handled reply, m))
        = (do
            let (reply, m) ← handleEvent os m event
            return (respond link.json observed handled reply, m)) := by
    rintro handled rfl hevent
    rw [hfits, if_neg Bool.false_ne_true, hevent]
  cases c with
  | version => cases hevent
  | listServices => exact hserved rfl hevent
  | named op name =>
      cases op with
      | stopService prune => cases prune <;> exact hserved rfl hevent
      | _ => exact hserved rfl hevent

/-- A body over the limit is refused before the handler runs. -/
theorem serve_refused {link : Link} {path querySet : EncodeSet}
    (hdoc : link.stack.Documented path querySet) {c : Call} (hclean : c.Clean) {os : Os}
    {m : Machine} {credentials : Credentials} {observed : List (Except RecvError ApiServiceStatus)}
    (hrefused : link.refuses c.handled c.request.body = true) :
    serve link os m credentials observed c.request = .ok (some ⟨413, .full link.tooLong⟩, m) := by
  rw [serve, served_call hdoc hclean]
  cases c with
  | version | listServices => exact nomatch hrefused
  | named op name =>
      cases op with
      | stopService prune => cases prune <;> exact if_pos hrefused
      | _ => exact if_pos hrefused

/-! ## The result -/

/-- What a call amounts to on the server. -/
def managed (link : Link) (os : Os) (m : Machine) (credentials : Credentials)
    (observed : List (Except RecvError ApiServiceStatus)) (c : Call) :
    Except Panic (Outcome (Option (Except ServiceError Answer))) :=
  match c.handled.event credentials with
  | none => .ok (some (.ok (.value (.version link.version))), m)
  | some event => do
      let (reply, m) ← handleEvent os m event
      return (answered observed c.handled reply, m)

section Results

variable {link : Link} {path querySet : EncodeSet} {c : Call} {os : Os} {m : Machine}
  {credentials : Credentials} {observed : List (Except RecvError ApiServiceStatus)} {x : Exchange}

/-- A call amounts to the event that its request becomes. -/
theorem managed_event {event : Event} {reply : Reply} {m' : Machine}
    (hevent : c.handled.event credentials = some event)
    (h : handleEvent os m event = .ok (reply, m')) :
    managed link os m credentials observed c = .ok (answered observed c.handled reply, m') := by
  rw [managed, hevent]
  dsimp only
  rw [h]
  rfl

theorem call_eq (hunsent : x.unsent = none) :
    call link os m credentials observed x c
      = (serve link os m credentials observed c.request).map (fun served =>
          (match x.arrived c x.head with
            | .error error => some (.error (.transport error))
            | .ok () => served.1.bind (receive link.json c.wants (x.arrived c x.body)), served.2)) := by
  rw [call, hunsent]
  dsimp only
  cases serve link os m credentials observed c.request with
  | error p => rfl
  | ok served => cases x.arrived c x.head <;> rfl

/-- A request within the limit is handled, and its answer read as far as it arrives. -/
theorem serve_managed (hdoc : link.stack.Documented path querySet) (hclean : c.Clean)
    (hfits : link.refuses c.handled c.request.body = false) (body : Except String Unit)
    (hjson : body = .ok () → ∀ value m', managed link os m credentials observed c
      = .ok (some (.ok (.value value)), m') → link.json.Lossless value) :
    (serve link os m credentials observed c.request).map
        (fun served => (served.1.bind (receive link.json c.wants body), served.2))
      = (managed link os m credentials observed c).map
          (fun outcome => (outcome.1.map (read body), outcome.2)) := by
  cases hevent : c.handled.event credentials with
  | none =>
      obtain rfl := version_of_no_event hevent
      rw [serve, served_call hdoc hclean]
      exact congrArg (fun answer => Except.ok (answer, m))
        (receive_json fun hbody => hjson hbody _ m (by rw [managed, hevent]))
  | some event =>
      rw [serve_event hdoc hclean hevent hfits, managed, hevent]
      dsimp only
      cases hhandle : handleEvent os m event with
      | error p => rfl
      | ok outcome =>
          obtain ⟨reply, m'⟩ := outcome
          refine congrArg (fun answer => Except.ok (answer, m'))
            (receive_respond (reply_fits hevent hhandle) fun hbody value hvalue => ?_)
          refine hjson hbody value m' ?_
          rw [managed, hevent]
          dsimp only
          rw [hhandle, ← hvalue]
          rfl

/-- An answer that is read is the one that was given. -/
theorem read_eq_ok {body : Except String Unit} {result : Except ServiceError Answer}
    {answer : Answer} (h : read body result = .ok answer) : result = .ok answer := by
  cases result with
  | error e => cases body <;> cases h
  | ok given =>
      cases body with
      | ok _ =>
          cases h
          rfl
      | error error =>
          cases given with
          | reader payload =>
              cases h
              rfl
          | value _ | text _ => cases h

/-- **A call that succeeds** has got the answer of the manager. -/
theorem call_answer (hdoc : link.stack.Documented path querySet) (hclean : c.Clean)
    (hfits : link.refuses c.handled c.request.body = false)
    (hjson : ∀ value m', managed link os m credentials observed c
      = .ok (some (.ok (.value value)), m') → link.json.Lossless value)
    {answer : Answer} {m' : Machine}
    (h : call link os m credentials observed x c = .ok (some (.ok answer), m')) :
    managed link os m credentials observed c = .ok (some (.ok answer), m') := by
  cases hunsent : x.unsent with
  | some error => rw [call, hunsent] at h; cases h
  | none =>
      rw [call_eq hunsent] at h
      cases hhead : x.arrived c x.head with
      | error error =>
          rw [hhead] at h
          cases hserve : serve link os m credentials observed c.request <;> rw [hserve] at h <;> cases h
      | ok _ =>
          rw [hhead] at h
          dsimp only at h
          rw [serve_managed hdoc hclean hfits (x.arrived c x.body) fun _ => hjson] at h
          cases hmanaged : managed link os m credentials observed c with
          | error p => rw [hmanaged] at h; cases h
          | ok outcome =>
              rw [hmanaged] at h
              obtain ⟨hanswer, rfl⟩ := Prod.mk.inj (Except.ok.inj h)
              obtain ⟨result, hresult, hread⟩ := Option.map_eq_some_iff.mp hanswer
              rw [← read_eq_ok hread, ← hresult]

/-- A call handles one event at most. -/
theorem call_machine {result : Option (Except ClientError Answer)} {m' : Machine}
    (h : call link os m credentials observed x c = .ok (result, m')) :
    m' = m ∨ ∃ event reply, handleEvent os m event = .ok (reply, m') := by
  have hserve : ∀ {response : Option HttpResponse} {m' : Machine},
      serve link os m credentials observed c.request = .ok (response, m') →
      m' = m ∨ ∃ event reply, handleEvent os m event = .ok (reply, m') := by
    intro response m' h
    unfold serve at h
    split at h
    · cases h
      exact .inl rfl
    · cases h
      exact .inl rfl
    · split at h
      · cases h
        exact .inl rfl
      · split at h
        · cases h
          exact .inl rfl
        · obtain ⟨⟨reply, m₁⟩, hhandle, h⟩ := bind_eq_ok.mp h
          cases h
          exact .inr ⟨_, reply, hhandle⟩
  cases hunsent : x.unsent with
  | some error =>
      rw [call, hunsent] at h
      cases h
      exact .inl rfl
  | none =>
      rw [call_eq hunsent] at h
      cases hserved : serve link os m credentials observed c.request with
      | error p => rw [hserved] at h; cases h
      | ok served =>
          rw [hserved] at h
          cases h
          exact hserve hserved

/-- What becomes of the state does not depend on what is made of the answer. -/
theorem map_forget {α β γ : Type} (f : α → β) (answer : γ) (r : Except Panic (Outcome α)) :
    (r.map fun outcome => (f outcome.1, outcome.2)).map (fun outcome => (answer, outcome.2))
      = r.map fun outcome => (answer, outcome.2) := by
  cases r <;> rfl

/-- **HEADLINE.** A call of the client is the operation of the manager: whatever the
    state, the caller, the service and the answers of the system, a method whose
    response arrives before its timeout returns what the manager answered, or the
    manager's own error with its status and text, and never fails to decode a
    response; a call whose wait goes on, and only that, has not returned.  A method
    that gives up returns the error of the connection, and the operation has been
    carried out all the same unless the request did not get to the server, or was
    refused there for its length. -/
theorem call_is_local (hdoc : link.stack.Documented path querySet) (hclean : c.Clean) (os : Os)
    (m : Machine) (credentials : Credentials)
    (observed : List (Except RecvError ApiServiceStatus)) (x : Exchange)
    (hjson : ∀ value m', managed link os m credentials observed c
      = .ok (some (.ok (.value value)), m') → link.json.Lossless value) :
    (∀ error, x.unsent = some error →
        call link os m credentials observed x c = .ok (some (.error (.transport error)), m))
      ∧ (x.unsent = none → link.refuses c.handled c.request.body = true →
          x.arrived c x.head = .ok () → x.arrived c x.body = .ok () →
          call link os m credentials observed x c
            = .ok (some (.error (.response 413 link.tooLong)), m))
      ∧ (x.unsent = none → link.refuses c.handled c.request.body = false →
          (∀ error, x.arrived c x.head = .error error →
            call link os m credentials observed x c
              = (managed link os m credentials observed c).map
                  (fun outcome => (some (.error (.transport error)), outcome.2)))
            ∧ (x.arrived c x.head = .ok () →
                (∀ error, x.arrived c x.body = .error error →
                  call link os m credentials observed x c
                    = (managed link os m credentials observed c).map
                        (fun outcome => (outcome.1.map (cutOff error), outcome.2)))
                  ∧ (x.arrived c x.body = .ok () →
                    call link os m credentials observed x c
                      = (managed link os m credentials observed c).map
                          (fun outcome =>
                            (outcome.1.map (Except.mapError asClientError), outcome.2))))) := by
  refine ⟨fun error hunsent => ?_, fun hunsent hrefused hhead hbody => ?_,
    fun hunsent hfits => ⟨fun error hhead => ?_, fun hhead => ⟨fun error hbody => ?_,
      fun hbody => ?_⟩⟩⟩
  · rw [call, hunsent]
  · rw [call_eq hunsent, serve_refused hdoc hclean hrefused, hhead, hbody]
    rfl
  · -- the server does not know that nobody waits
    have hserved := serve_managed hdoc hclean hfits (.ok ()) fun _ => hjson
    have hforgot := congrArg (Except.map fun outcome =>
      (some (Except.error (ClientError.transport error) : Except ClientError Answer), outcome.2)) hserved
    rw [map_forget (Option.bind · (receive link.json c.wants (.ok ()))),
      map_forget (Option.map (read (.ok ())))] at hforgot
    rw [call_eq hunsent, hhead]
    exact hforgot
  · rw [call_eq hunsent, hhead, hbody]
    exact serve_managed hdoc hclean hfits (.error error) nofun
  · rw [call_eq hunsent, hhead, hbody]
    exact serve_managed hdoc hclean hfits (.ok ()) fun _ => hjson

end Results

/-- `Json(())` is sent as `null`. -/
def nullJson : Json where
  encode value := if value = .unit then "null" else ""
  decode type text := if type = .unit ∧ text = "null" then .ok .unit else .error "invalid type"

def nullLink : Link where
  stack := standardStack
  json := nullJson
  refusal := ⟨404, .full "404 Not Found"⟩
  version := ⟨"0.1.0", "unknown"⟩
  bodyLength _ := 4
  tooLong := "Failed to buffer the request body: length limit exceeded"

/-- An exchange of a few milliseconds. -/
def prompt : Exchange where
  unsent := none
  head := .ok 3
  body := .ok 4
  waitTimeout := none
  timedOut := "error sending request: operation timed out"

/-- The owner of `web` stops it. -/
theorem call_is_local_web :
    call nullLink stopWeb.1 (machineAfter [createWeb]) ⟨1000, 1000⟩ [] prompt
        (.named (.stopService false) "web")
      = (managed nullLink stopWeb.1 (machineAfter [createWeb]) ⟨1000, 1000⟩ []
          (.named (.stopService false) "web")).map
            (fun outcome => (outcome.1.map (Except.mapError asClientError), outcome.2)) := by
  have hanswer : (managed nullLink stopWeb.1 (machineAfter [createWeb]) ⟨1000, 1000⟩ []
      (.named (.stopService false) "web")).toOption.map Prod.fst
        = some (some (.ok (.value .unit))) := by decide +kernel
  have huntouched : Untouched (.stopService false) "web" :=
    ⟨by decide +kernel, by decide +kernel, by decide +kernel, fun h => nomatch h⟩
  have hclean : Call.Clean (.named (.stopService false) "web") := ⟨by decide, huntouched⟩
  refine ((call_is_local standardStack_documented hclean stopWeb.1 (machineAfter [createWeb])
    ⟨1000, 1000⟩ [] prompt fun value m' hvalue => ?_).2.2 rfl rfl).2 rfl |>.2 rfl
  rw [hvalue] at hanswer
  cases hanswer
  show nullJson.decode .unit (nullJson.encode .unit) = .ok .unit
  decide +kernel

end BeamClientCalls
