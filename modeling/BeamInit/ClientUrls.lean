import BeamInit.Routes
import BeamInit.UrlPath

/-! # Client URLs — which handler a client's request reaches, and with which name

    The blocking client puts the name of a service into its URL as it is; the
    URL is parsed on the client, matched against the routes of the API socket
    and percent-decoded on the server.  An operation therefore reaches its own
    handler with its own name exactly for the names that this way of a URL does
    not touch. -/

namespace BeamClientUrls

open BeamApi BeamRoutes UrlPath
open BeamService (ServiceConfig)
open BeamManager (Machine)

/-! ## Requests of the client -/

inductive Method where
  | get
  | post
  | delete
deriving DecidableEq

/-- The JSON body of a request, by the type it is the encoding of. -/
inductive Body where
  | empty
  | null
  | service (service : CreateService)
  | signal (sig : Int)

structure Request where
  method : Method
  path : String
  body : Body

def servicePath (name : String) : String := "/service/" ++ name

def serviceActionPath (name action : String) : String := servicePath name ++ "/" ++ action

/-- `impl Display for ServiceStatusKind`. -/
def kindText : ServiceStatusKind → String
  | .stopped => "stopped"
  | .running => "running"
  | .frozen => "frozen"
  | .stopping => "stopping"
  | .exited => "exited"
  | .error => "error"

section Client

variable (name : String)

def createService (service : CreateService) : Request :=
  ⟨.post, servicePath name, .service service⟩

def stopService (prune : Bool) : Request :=
  if prune then ⟨.delete, servicePath name, .empty⟩
  else ⟨.post, serviceActionPath name "stop", .null⟩

def restartService : Request := ⟨.post, serviceActionPath name "restart", .null⟩

def showService : Request := ⟨.post, serviceActionPath name "show", .null⟩

def freezeService : Request := ⟨.post, serviceActionPath name "freeze", .null⟩

def thawService : Request := ⟨.post, serviceActionPath name "thaw", .null⟩

def logs : Request := ⟨.get, serviceActionPath name "logs" ++ "?follow=false", .empty⟩

def followLogs : Request := ⟨.get, serviceActionPath name "logs" ++ "?follow=true", .empty⟩

def notifyPtyAttached : Request :=
  ⟨.post, serviceActionPath name "notify_pty_attached", .null⟩

def notifyPtyDetached : Request :=
  ⟨.post, serviceActionPath name "notify_pty_detached", .null⟩

def sendSignal (sig : Int) : Request := ⟨.post, serviceActionPath name "send_signal", .signal sig⟩

def waitServiceState (stateKind : ServiceStatusKind) : Request :=
  ⟨.get, serviceActionPath name "wait" ++ "?state=" ++ kindText stateKind, .empty⟩

end Client

/-- The operations of the client that take a name, with their other arguments. -/
inductive Operation where
  | createService (service : CreateService)
  | stopService (prune : Bool)
  | restartService
  | showService
  | freezeService
  | thawService
  | logs
  | followLogs
  | notifyPtyAttached
  | notifyPtyDetached
  | sendSignal (sig : Int)
  | waitServiceState (stateKind : ServiceStatusKind)

def Operation.request (name : String) : Operation → Request
  | .createService service => BeamClientUrls.createService name service
  | .stopService prune => BeamClientUrls.stopService name prune
  | .restartService => BeamClientUrls.restartService name
  | .showService => BeamClientUrls.showService name
  | .freezeService => BeamClientUrls.freezeService name
  | .thawService => BeamClientUrls.thawService name
  | .logs => BeamClientUrls.logs name
  | .followLogs => BeamClientUrls.followLogs name
  | .notifyPtyAttached => BeamClientUrls.notifyPtyAttached name
  | .notifyPtyDetached => BeamClientUrls.notifyPtyDetached name
  | .sendSignal sig => BeamClientUrls.sendSignal name sig
  | .waitServiceState stateKind => BeamClientUrls.waitServiceState name stateKind

/-- The handler of an operation, with the name it is called with. -/
def Operation.handled (name : String) : Operation → ClientRequest
  | .createService service => .createService name service
  | .stopService true => .deleteService name
  | .stopService false => .stopService name
  | .restartService => .restartService name
  | .showService => .showService name
  | .freezeService => .freezeService name
  | .thawService => .thawService name
  | .logs => .serviceLogs name false
  | .followLogs => .serviceLogs name true
  | .notifyPtyAttached => .notifyPtyAttached name
  | .notifyPtyDetached => .notifyPtyDetached name
  | .sendSignal sig => .sendSignal name sig
  | .waitServiceState stateKind => .waitService name stateKind

/-! ## The routes of the API socket -/

/-- The HTTP libraries on the two sides: URL parsing in the client, and the
    decoding of the query of the routes that take one in the server. -/
structure HttpStack where
  parseUrl : OsString → Option Target
  followOf : Option OsString → Option Bool
  stateOf : Option OsString → Option ServiceStatusKind

/-- The stack parses URLs as the standard says and decodes well-formed queries. -/
structure HttpStack.Documented (stack : HttpStack) (path query : EncodeSet) : Prop where
  url : ∀ rest, stack.parseUrl (toOsString "http://beam-init/" ++ rest)
    = some (parse path query rest)
  notFollowed : stack.followOf (some (toOsString "follow=false")) = some false
  followed : stack.followOf (some (toOsString "follow=true")) = some true
  state : ∀ kind, stack.stateOf (some (toOsString ("state=" ++ kindText kind))) = some kind

/-- The routes below `/service/{name}/`. -/
inductive ActionRoute where
  | restart
  | stop
  | freeze
  | thaw
  | show
  | logs
  | notifyPtyAttached
  | notifyPtyDetached
  | sendSignal
  | wait
deriving DecidableEq

def ActionRoute.text : ActionRoute → String
  | .restart => "restart"
  | .stop => "stop"
  | .freeze => "freeze"
  | .thaw => "thaw"
  | .show => "show"
  | .logs => "logs"
  | .notifyPtyAttached => "notify_pty_attached"
  | .notifyPtyDetached => "notify_pty_detached"
  | .sendSignal => "send_signal"
  | .wait => "wait"

def actionRoutes : List ActionRoute :=
  [.restart, .stop, .freeze, .thaw, .show, .logs, .notifyPtyAttached, .notifyPtyDetached,
    .sendSignal, .wait]

section Server

variable (stack : HttpStack)

/-- What the handler of a route makes of a request: another method, a body of
    another type or a malformed query is refused before the handler runs. -/
def ActionRoute.handle (name : String) (query : Option OsString) :
    ActionRoute → Method → Body → Option ClientRequest
  | .restart, .post, _ => some (.restartService name)
  | .stop, .post, _ => some (.stopService name)
  | .freeze, .post, _ => some (.freezeService name)
  | .thaw, .post, _ => some (.thawService name)
  | .show, .post, _ => some (.showService name)
  | .logs, .get, _ => (stack.followOf query).map (.serviceLogs name)
  | .notifyPtyAttached, .post, _ => some (.notifyPtyAttached name)
  | .notifyPtyDetached, .post, _ => some (.notifyPtyDetached name)
  | .sendSignal, .post, .signal sig => some (.sendSignal name sig)
  | .wait, .get, _ => (stack.stateOf query).map (.waitService name)
  | _, _, _ => none

/-- The route `/service/{name}`. -/
def handleService (name : String) : Method → Body → Option ClientRequest
  | .post, .service service => some (.createService name service)
  | .delete, _ => some (.deleteService name)
  | _, _ => none

/-- `Path<String>`: the segment is percent-decoded, and must be UTF-8 then. -/
def pathName (segment : OsString) : Option String :=
  String.fromUTF8? ⟨(percentDecode segment).toArray⟩

/-- The router of `bind_api_socket`: `{name}` is one segment that is not empty. -/
def routed (target : Target) (method : Method) (body : Body) : Option ClientRequest :=
  match target.segments with
  | [root] =>
      if root = toOsString "services" ∧ method = .get then some .listServices
      else if root = toOsString "version" ∧ method = .get then some .version
      else none
  | [root, segment] =>
      if root = toOsString "service" ∧ segment ≠ [] then
        (pathName segment).bind (fun name => handleService name method body)
      else none
  | [root, segment, action] =>
      if root = toOsString "service" ∧ segment ≠ [] then
        (actionRoutes.find? (fun route => toOsString route.text == action)).bind (fun route =>
          (pathName segment).bind (fun name =>
            route.handle stack name target.query method body))
      else none
  | _ => none

/-- `Client::request`, and what the server runs for it. -/
def served (request : Request) : Option ClientRequest :=
  (stack.parseUrl (toOsString ("http://beam-init" ++ request.path))).bind (fun target =>
    routed stack target request.method request.body)

end Server

/-! ## The text of a client's URL -/

/-- The route an operation names after the service, if any. -/
def Operation.route : Operation → Option ActionRoute
  | .createService _ => none
  | .stopService true => none
  | .stopService false => some .stop
  | .restartService => some .restart
  | .showService => some .show
  | .freezeService => some .freeze
  | .thawService => some .thaw
  | .logs => some .logs
  | .followLogs => some .logs
  | .notifyPtyAttached => some .notifyPtyAttached
  | .notifyPtyDetached => some .notifyPtyDetached
  | .sendSignal _ => some .sendSignal
  | .waitServiceState _ => some .wait

def Operation.query : Operation → Option String
  | .logs => some "follow=false"
  | .followLogs => some "follow=true"
  | .waitServiceState stateKind => some ("state=" ++ kindText stateKind)
  | _ => none

/-- The segments of an operation's path. -/
def Operation.segments (op : Operation) (name : String) : List OsString :=
  toOsString "service" :: toOsString name :: (op.route.map (fun r => toOsString r.text)).toList

/-- The URL of a service has two segments. -/
theorem url_service (name : String) :
    toOsString ("http://beam-init" ++ servicePath name)
      = toOsString "http://beam-init/" ++ text [toOsString "service", toOsString name] none := by
  have hroot : toOsString "http://beam-init" ++ toOsString "/service/"
      = toOsString "http://beam-init/" ++ (toOsString "service" ++ [47]) := by decide +kernel
  rw [servicePath, toOsString_append, toOsString_append, ← List.append_assoc, hroot]
  simp [text]

/-- The URL of an action has three. -/
theorem url_action (name action : String) :
    toOsString ("http://beam-init" ++ serviceActionPath name action)
      = toOsString "http://beam-init/"
        ++ text [toOsString "service", toOsString name, toOsString action] none := by
  have hslash : toOsString "/" = [47] := by decide +kernel
  rw [serviceActionPath, ← String.append_assoc, ← String.append_assoc, toOsString_append,
    toOsString_append, url_service, hslash]
  simp [text]

/-- The query of a URL comes after its segments. -/
theorem url_query (name action query : String) :
    toOsString ("http://beam-init" ++ (serviceActionPath name action ++ ("?" ++ query)))
      = toOsString "http://beam-init/"
        ++ text [toOsString "service", toOsString name, toOsString action]
          (some (toOsString query)) := by
  have hquestion : toOsString "?" = [63] := by decide +kernel
  rw [← String.append_assoc, toOsString_append, url_action, toOsString_append, hquestion]
  simp [text]

/-- **The URL of every operation**, by its segments and its query. -/
theorem url_eq (op : Operation) (name : String) :
    toOsString ("http://beam-init" ++ (op.request name).path)
      = toOsString "http://beam-init/"
        ++ text (op.segments name) (op.query.map toOsString) := by
  cases op with
  | createService service => exact url_service name
  | stopService prune =>
      cases prune with
      | false => exact url_action name "stop"
      | true => exact url_service name
  | restartService => exact url_action name "restart"
  | showService => exact url_action name "show"
  | freezeService => exact url_action name "freeze"
  | thawService => exact url_action name "thaw"
  | logs =>
      have hquery : "?follow=false" = "?" ++ "follow=false" := by decide
      show toOsString ("http://beam-init" ++ (serviceActionPath name "logs" ++ "?follow=false")) = _
      rw [hquery]
      exact url_query name "logs" "follow=false"
  | followLogs =>
      have hquery : "?follow=true" = "?" ++ "follow=true" := by decide
      show toOsString ("http://beam-init" ++ (serviceActionPath name "logs" ++ "?follow=true")) = _
      rw [hquery]
      exact url_query name "logs" "follow=true"
  | notifyPtyAttached => exact url_action name "notify_pty_attached"
  | notifyPtyDetached => exact url_action name "notify_pty_detached"
  | sendSignal sig => exact url_action name "send_signal"
  | waitServiceState stateKind =>
      have hquery : "?state=" = "?" ++ "state=" := by decide
      show toOsString ("http://beam-init"
        ++ (serviceActionPath name "wait" ++ "?state=" ++ kindText stateKind)) = _
      rw [hquery, String.append_assoc, String.append_assoc]
      exact url_query name "wait" ("state=" ++ kindText stateKind)

/-! ## The names a URL leaves alone -/

/-- The names `create_service` accepts. -/
def Creatable (name : String) : Prop := name ≠ "" ∧ name.utf8ByteSize ≤ 255

/-- The operation reaches its own handler, with its own name. -/
def Reaches (stack : HttpStack) (op : Operation) (name : String) : Prop :=
  served stack (op.request name) = some (op.handled name)

/-- Nothing on the way of the operation's URL touches the name: no byte of it
    separates, ends or is dropped from a path, none of it is an escape, it is
    no dot segment, and where it ends the URL it is not stripped. -/
structure Untouched (op : Operation) (name : String) : Prop where
  unreserved : ∀ b ∈ toOsString name, isReserved b = false
  noEscape : hasEscape (toOsString name) = false
  noDots : name ≠ "." ∧ name ≠ ".."
  ending : op.route = none → ∀ b ∈ (toOsString name).getLast?, isStripped b = false

/-- A kept byte passes through a parser and is not stripped. -/
theorem isKept_spec {b : UInt8} (h : isKept b = true) :
    isReserved b = false ∧ isStripped b = false ∧ b ≠ 35 := by
  have hall : ∀ n : Fin 256, isKept (UInt8.ofFin n) = true →
      isReserved (UInt8.ofFin n) = false ∧ isStripped (UInt8.ofFin n) = false
        ∧ UInt8.ofFin n ≠ 35 := by decide +kernel
  exact hall b.toFin h

/-- The routes are segments that pass through a parser. -/
theorem route_text (route : ActionRoute) :
    (∀ b ∈ toOsString route.text, isKept b = true) ∧ toOsString route.text ≠ []
      ∧ toOsString route.text ∉ singleDots ∧ toOsString route.text ∉ doubleDots := by
  have hkept : (toOsString route.text).all isKept = true := by cases route <;> decide +kernel
  refine ⟨List.all_eq_true.mp hkept, ?_⟩
  cases route <;> decide +kernel

/-- The texts of the routes differ. -/
theorem find_route (route : ActionRoute) :
    actionRoutes.find? (fun r => toOsString r.text == toOsString route.text) = some route := by
  have htext : (fun r : ActionRoute => toOsString r.text == toOsString route.text)
      = (fun r : ActionRoute => r.text == route.text) := by
    funext r
    rw [Bool.eq_iff_iff, beq_iff_eq, beq_iff_eq]
    exact ⟨toOsString_injective, congrArg toOsString⟩
  rw [htext]
  cases route <;> decide

/-- So is the first segment. -/
theorem service_text : (∀ b ∈ toOsString "service", isKept b = true)
    ∧ toOsString "service" ∉ singleDots ∧ toOsString "service" ∉ doubleDots := by
  have hkept : (toOsString "service").all isKept = true := by decide +kernel
  exact ⟨List.all_eq_true.mp hkept, by decide +kernel⟩

/-- Only actions have a query, and it passes through a parser. -/
theorem query_text {op : Operation} {query : String} (h : op.query = some query) :
    op.route ≠ none ∧ toOsString query ≠ [] ∧ ∀ b ∈ toOsString query, isKept b = true := by
  have hall : op.route ≠ none ∧ toOsString query ≠ [] ∧ (toOsString query).all isKept = true := by
    cases op with
    | logs => cases h; exact ⟨nofun, by decide +kernel⟩
    | followLogs => cases h; exact ⟨nofun, by decide +kernel⟩
    | waitServiceState stateKind =>
        cases h
        refine ⟨nofun, ?_⟩
        cases stateKind <;> decide +kernel
    | _ => exact nomatch h
  exact ⟨hall.1, hall.2.1, List.all_eq_true.mp hall.2.2⟩

theorem toOsString_ne_nil {name : String} (h : name ≠ "") : toOsString name ≠ [] :=
  fun hnil => h (toOsString_injective (hnil.trans (by decide +kernel)))

/-- The last byte is that of the second part, if there is one. -/
theorem getLast?_append_of_ne_nil {α : Type} {s t : List α} (h : t ≠ []) :
    (s ++ t).getLast? = t.getLast? := by
  rw [List.getLast?_append]
  cases ht : t.getLast? with
  | none => exact absurd (List.getLast?_eq_none_iff.mp ht) h
  | some b => rfl

/-- The text of an operation that names a route after the service. -/
theorem text_some {op : Operation} {route : ActionRoute} (h : op.route = some route)
    (name : String) (query : Option OsString) :
    text (op.segments name) query = toOsString "service"
      ++ 47 :: (toOsString name ++ 47 :: text [toOsString route.text] query) := by
  simp [Operation.segments, h, text]

/-- The text of an operation whose URL ends with the name. -/
theorem text_none {op : Operation} (h : op.route = none) (name : String) :
    text (op.segments name) (op.query.map toOsString)
      = toOsString "service" ++ 47 :: toOsString name := by
  cases hquery : op.query with
  | some query => exact absurd h (query_text hquery).1
  | none => simp [Operation.segments, h, text]

/-- A URL with a segment is not empty. -/
theorem text_ne_nil {segment : OsString} (h : segment ≠ []) (query : Option OsString) :
    text [segment] query ≠ [] := by
  rw [text, List.intercalate_singleton]
  exact fun hnil => h (List.append_eq_nil_iff.mp hnil).1

/-- What an operation puts after the name is plain. -/
theorem plain_route {op : Operation} (route : ActionRoute) :
    Plain [toOsString route.text] (op.query.map toOsString) where
  ne_nil := nofun
  unreserved := by
    intro s hs b hb
    rw [List.mem_singleton.mp hs] at hb
    exact (isKept_spec ((route_text route).1 b hb)).1
  unfragmented := by
    intro q hq b hb
    obtain ⟨query, hquery, rfl⟩ := Option.mem_map.mp hq
    have hkept := isKept_spec ((query_text hquery).2.2 b hb)
    exact ⟨hkept.2.2, (isReserved_false hkept.1).2.2⟩
  last := by
    intro b hb
    have hkept : ∀ {t : OsString}, (∀ c ∈ t, isKept c = true) → b ∈ t.getLast? →
        isStripped b = false :=
      fun ht hlast => (isKept_spec (ht b (List.mem_of_getLast? hlast))).2.1
    rw [text, List.intercalate_singleton] at hb
    cases hquery : op.query with
    | none =>
        rw [hquery, Option.map_none, Option.map_none, Option.getD_none, List.append_nil] at hb
        exact hkept (route_text route).1 hb
    | some query =>
        obtain ⟨-, hne, hall⟩ := query_text hquery
        rw [hquery, Option.map_some, Option.map_some, Option.getD_some,
          getLast?_append_of_ne_nil (List.cons_ne_nil _ _), ← List.singleton_append,
          getLast?_append_of_ne_nil hne] at hb
        exact hkept hall hb

/-- An untouched name leaves the text of the operation's URL plain. -/
theorem Untouched.plain {op : Operation} {name : String} (h : Untouched op name)
    (hname : name ≠ "") : Plain (op.segments name) (op.query.map toOsString) where
  ne_nil := nofun
  unreserved := by
    intro s hs b hb
    rcases List.mem_cons.mp hs with rfl | hs
    · exact (isKept_spec (service_text.1 b hb)).1
    · rcases List.mem_cons.mp hs with rfl | hs
      · exact h.unreserved b hb
      · obtain ⟨route, -, rfl⟩ := Option.mem_map.mp (Option.mem_toList.mp hs)
        exact (isKept_spec ((route_text route).1 b hb)).1
  unfragmented := by
    have hroute : Plain [toOsString ActionRoute.stop.text] (op.query.map toOsString) :=
      plain_route .stop
    exact hroute.unfragmented
  last := by
    intro b hb
    cases hroute : op.route with
    | none =>
        rw [text_none hroute, List.append_cons,
          getLast?_append_of_ne_nil (toOsString_ne_nil hname)] at hb
        exact h.ending hroute b hb
    | some route =>
        rw [text_some hroute, List.append_cons, ← List.append_assoc, List.append_cons,
          getLast?_append_of_ne_nil (text_ne_nil (route_text route).2.1 _)] at hb
        exact (plain_route route).last b hb

/-- An untouched name is decoded to itself, and encoded to no dot segment. -/
theorem Untouched.decoded {op : Operation} {name : String} (h : Untouched op name)
    (path : EncodeSet) :
    percentDecode (percentEncode path (toOsString name)) = toOsString name
      ∧ percentEncode path (toOsString name) ∉ singleDots
      ∧ percentEncode path (toOsString name) ∉ doubleDots := by
  have hdecode : percentDecode (percentEncode path (toOsString name)) = toOsString name := by
    rw [percentDecode_percentEncode]
    exact (percentDecode_eq_iff _).mpr h.noEscape
  have hdot : toOsString "." = [46] := by decide +kernel
  have hdots : toOsString ".." = [46, 46] := by decide +kernel
  have hnot : ¬(percentEncode path (toOsString name) ∈ singleDots
      ∨ percentEncode path (toOsString name) ∈ doubleDots) := by
    intro hmem
    rcases percentDecode_dots hmem with heq | heq
    · exact h.noDots.1 (toOsString_injective (by rw [hdot, ← heq, hdecode]))
    · exact h.noDots.2 (toOsString_injective (by rw [hdots, ← heq, hdecode]))
  exact ⟨hdecode, fun hs => hnot (.inl hs), fun hd => hnot (.inr hd)⟩

/-! ## Reaching the handler -/

section Reaching

variable {stack : HttpStack} {path querySet : EncodeSet} (hdoc : stack.Documented path querySet)

include hdoc

/-- What is served is what the router makes of the parsed text. -/
theorem served_eq (op : Operation) (name : String) :
    served stack (op.request name)
      = routed stack (parse path querySet (text (op.segments name) (op.query.map toOsString)))
          (op.request name).method (op.request name).body := by
  rw [served, url_eq, hdoc.url]
  rfl

/-- The handlers of the routes accept what the operations of those routes send. -/
theorem handle_operation {op : Operation} {route : ActionRoute} (h : op.route = some route)
    (name : String) :
    route.handle stack name (op.query.map toOsString) (op.request name).method
        (op.request name).body
      = some (op.handled name) := by
  cases op with
  | createService service => exact nomatch h
  | stopService prune =>
      cases prune with
      | true => exact nomatch h
      | false => cases h; rfl
  | logs =>
      cases h
      show (stack.followOf (some (toOsString "follow=false"))).map _ = _
      rw [hdoc.notFollowed]
      rfl
  | followLogs =>
      cases h
      show (stack.followOf (some (toOsString "follow=true"))).map _ = _
      rw [hdoc.followed]
      rfl
  | waitServiceState stateKind =>
      cases h
      show (stack.stateOf (some (toOsString ("state=" ++ kindText stateKind)))).map _ = _
      rw [hdoc.state]
      rfl
  | _ => cases h; rfl

omit hdoc in
/-- The handlers of a service serve the operations without an action. -/
theorem handle_service {op : Operation} (h : op.route = none) (name : String) :
    handleService name (op.request name).method (op.request name).body
      = some (op.handled name) := by
  cases op with
  | createService service => rfl
  | stopService prune =>
      cases prune with
      | true => rfl
      | false => exact nomatch h
  | _ => exact nomatch h

/-- An untouched name gets through. -/
theorem Untouched.reaches {op : Operation} {name : String} (h : Untouched op name)
    (hname : name ≠ "") : Reaches stack op name := by
  obtain ⟨hdecode, hsingle, hdouble⟩ := h.decoded path
  have hpath : pathName (percentEncode path (toOsString name)) = some name := by
    rw [pathName, hdecode]
    exact fromUTF8?_eq_some.mpr rfl
  have hne : percentEncode path (toOsString name) ≠ [] := by
    intro hnil
    rw [hnil] at hdecode
    exact toOsString_ne_nil hname hdecode.symm
  have hservice := percentEncode_of_isKept path service_text.1
  have hroute : ∀ route : ActionRoute,
      percentEncode path (toOsString route.text) = toOsString route.text :=
    fun route => percentEncode_of_isKept path (route_text route).1
  have hquery : (op.query.map toOsString).map (percentEncode querySet) = op.query.map toOsString := by
    cases hq : op.query with
    | none => rfl
    | some query =>
        rw [Option.map_some, Option.map_some, percentEncode_of_isKept querySet (query_text hq).2.2]
  rw [Reaches, served_eq hdoc, (h.plain hname).parse_text path querySet, hquery]
  · cases hr : op.route with
    | none =>
        rw [Operation.segments, hr, Option.map_none, Option.toList_none, List.map_cons,
          List.map_cons, List.map_nil, hservice]
        show (if toOsString "service" = toOsString "service"
            ∧ percentEncode path (toOsString name) ≠ [] then _ else none) = _
        rw [if_pos ⟨rfl, hne⟩, hpath, Option.bind_some]
        exact handle_service hr name
    | some route =>
        rw [Operation.segments, hr, Option.map_some, Option.toList_some, List.map_cons,
          List.map_cons, List.map_cons, List.map_nil, hservice, hroute]
        show (if toOsString "service" = toOsString "service"
            ∧ percentEncode path (toOsString name) ≠ [] then _ else none) = _
        rw [if_pos ⟨rfl, hne⟩, find_route route, Option.bind_some, hpath,
          Option.bind_some]
        exact handle_operation hdoc hr name
  · intro s hs
    rcases List.mem_cons.mp hs with rfl | hs
    · rw [hservice]
      exact service_text.2
    · rcases List.mem_cons.mp hs with rfl | hs
      · exact ⟨hsingle, hdouble⟩
      · obtain ⟨route, -, rfl⟩ := Option.mem_map.mp (Option.mem_toList.mp hs)
        rw [hroute]
        exact (route_text route).2.2

end Reaching

/-! ## What reaching the handler takes -/

/-- The name a request carries, if any. -/
def nameOf : ClientRequest → Option String
  | .createService name _ => some name
  | .deleteService name => some name
  | .restartService name => some name
  | .stopService name => some name
  | .freezeService name => some name
  | .thawService name => some name
  | .showService name => some name
  | .serviceLogs name _ => some name
  | .notifyPtyAttached name => some name
  | .notifyPtyDetached name => some name
  | .sendSignal name _ => some name
  | .waitService name _ => some name
  | .listServices => none
  | .version => none
  | .pty _ => none

@[simp] theorem nameOf_handled (op : Operation) (name : String) :
    nameOf (op.handled name) = some name := by
  cases op with
  | stopService prune => cases prune <;> rfl
  | _ => rfl

/-- The handler of an action is called with the name in the URL. -/
theorem nameOf_handle {stack : HttpStack} {name : String} {query : Option OsString}
    {route : ActionRoute} {method : Method} {body : Body} {request : ClientRequest}
    (h : route.handle stack name query method body = some request) :
    nameOf request = some name := by
  rw [ActionRoute.handle.eq_def] at h
  split at h
  case h_6 =>
    obtain ⟨follow, -, rfl⟩ := Option.map_eq_some_iff.mp h
    rfl
  case h_10 =>
    obtain ⟨kind, -, rfl⟩ := Option.map_eq_some_iff.mp h
    rfl
  all_goals first
    | exact (Option.some.inj h) ▸ rfl
    | exact nomatch h

/-- `/service/{name}` only creates and deletes. -/
theorem handleService_some {name name' : String} {method : Method} {body : Body}
    {op : Operation} (h : handleService name' method body = some (op.handled name)) :
    name' = name ∧ op.route = none := by
  have hname : nameOf (op.handled name) = some name' := by
    rw [handleService.eq_def] at h
    split at h
    · exact (Option.some.inj h) ▸ rfl
    · exact (Option.some.inj h) ▸ rfl
    · exact nomatch h
  rw [nameOf_handled] at hname
  refine ⟨(Option.some.inj hname).symm, ?_⟩
  rw [handleService.eq_def] at h
  cases op with
  | createService service => rfl
  | stopService prune =>
      cases prune with
      | true => rfl
      | false => split at h <;> exact nomatch h
  | _ => split at h <;> exact nomatch h

/-- The segments of a request that reaches the handler of an operation. -/
theorem segments_of_routed {stack : HttpStack} {target : Target} {method : Method} {body : Body}
    {op : Operation} {name : String}
    (h : routed stack target method body = some (op.handled name)) :
    ∃ segment rest, target.segments = toOsString "service" :: segment :: rest ∧ segment ≠ []
      ∧ pathName segment = some name
      ∧ ((rest = [] ∧ op.route = none) ∨ ∃ route : ActionRoute, rest = [toOsString route.text]) := by
  rw [routed] at h
  split at h
  · next root hsegments =>
      -- The routes without a name carry none.
      have hname := nameOf_handled op name
      split at h
      · rw [← Option.some.inj h] at hname
        exact nomatch hname
      · split at h
        · rw [← Option.some.inj h] at hname
          exact nomatch hname
        · exact nomatch h
  · next root segment hsegments =>
      split at h
      · next hroot =>
          obtain ⟨name', hname', hhandle⟩ := Option.bind_eq_some_iff.mp h
          obtain ⟨rfl, hroute⟩ := handleService_some hhandle
          exact ⟨segment, [], by rw [hsegments, hroot.1], hroot.2, hname', .inl ⟨rfl, hroute⟩⟩
      · exact nomatch h
  · next root segment action hsegments =>
      split at h
      · next hroot =>
          obtain ⟨route, hfind, h⟩ := Option.bind_eq_some_iff.mp h
          obtain ⟨name', hname', hhandle⟩ := Option.bind_eq_some_iff.mp h
          have hname := nameOf_handle hhandle
          rw [nameOf_handled] at hname
          have haction : toOsString route.text = action := by simpa using List.find?_some hfind
          exact ⟨segment, [action], by rw [hsegments, hroot.1], hroot.2,
            by rw [hname', hname], .inr ⟨route, by rw [haction]⟩⟩
      · exact nomatch h
  · exact nomatch h

/-- The `{name}` of a request that reaches its handler is cut out of the name
    the client was given. -/
theorem piece_of_segments {path querySet : EncodeSet} {op : Operation} {name : String}
    {segment : OsString} {rest : List OsString}
    (hsegments : (parse path querySet (text (op.segments name) (op.query.map toOsString))).segments
      = toOsString "service" :: segment :: rest)
    (hsegment : segment ≠ [])
    (hrest : (rest = [] ∧ op.route = none) ∨ ∃ route : ActionRoute, rest = [toOsString route.text]) :
    ∃ piece, segment = percentEncode path piece ∧ piece.Sublist (toOsString name)
      ∧ (∀ b ∈ piece, isReserved b = false)
      ∧ (op.route = none → piece.Sublist ((toOsString name).rdropWhile isStripped)) := by
  have hservice : ∀ b ∈ toOsString "service", isReserved b = false :=
    fun b hb => (isKept_spec (service_text.1 b hb)).1
  have hlast : (toOsString "service" :: segment :: rest).getLast? ≠ some [] := by
    rcases hrest with ⟨rfl, -⟩ | ⟨route, rfl⟩
    · exact fun hnil => hsegment (Option.some.inj hnil)
    · exact fun hnil => (route_text route).2.1 (Option.some.inj hnil)
  have hsub := segments_sublist hsegments hlast
  cases hroute : op.route with
  | none =>
      -- The URL ends with the name, so the segment is a piece of what is left of it.
      rw [text_none hroute, pieces_plain_append_slash hservice, List.map_cons] at hsub
      obtain ⟨piece, hpiece, rfl⟩ := List.mem_map.mp (hsub.tail.subset List.mem_cons_self)
      obtain ⟨hfrom, hplain⟩ := mem_pieces hpiece
      exact ⟨piece, rfl, hfrom.trans (List.rdropWhile_prefix isStripped _).sublist, hplain,
        fun _ => hfrom⟩
  | some route =>
      obtain ⟨route', rfl⟩ : ∃ route' : ActionRoute, rest = [toOsString route'.text] := by
        rcases hrest with ⟨-, hnone⟩ | hsome
        · exact nomatch hroute.symm.trans hnone
        · exact hsome
      rw [text_some hroute, pieces_plain_append_slash hservice, List.map_cons] at hsub
      have htail := hsub.tail
      rw [List.tail_cons, List.tail_cons] at htail
      -- The last piece is the route, or cut off; either way it is not the segment.
      have hmem : segment ∈ ((inner (toOsString name)).splitOnP isSeparator).map
          (percentEncode path) := by
        rcases pieces_append_slash (toOsString name)
          (text [toOsString route.text] (op.query.map toOsString)) with hpieces | hpieces
        · rw [hpieces] at htail
          exact htail.subset List.mem_cons_self
        · rw [hpieces, (plain_route route).pieces_text, List.map_append, List.map_singleton] at htail
          have hinit := htail.reverse.tail
          rw [List.reverse_concat, List.tail_cons] at hinit
          exact List.mem_reverse.mp (hinit.subset List.mem_cons_self)
      obtain ⟨piece, hpiece, rfl⟩ := List.mem_map.mp hmem
      obtain ⟨hfrom, hplain⟩ := mem_splitOnP_inner hpiece
      exact ⟨piece, rfl, hfrom, hplain, fun hnone => nomatch hnone⟩

/-- Only an untouched name gets through. -/
theorem untouched_of_reaches {stack : HttpStack} {path querySet : EncodeSet}
    (hdoc : stack.Documented path querySet) {op : Operation} {name : String}
    (h : Reaches stack op name) : Untouched op name := by
  rw [Reaches, served_eq hdoc] at h
  obtain ⟨segment, rest, hsegments, hsegment, hpath, hrest⟩ := segments_of_routed h
  obtain ⟨piece, rfl, hfrom, hplain, hstripped⟩ := piece_of_segments hsegments hsegment hrest
  have hdecode : percentDecode piece = toOsString name := by
    rw [← percentDecode_percentEncode path]
    exact fromUTF8?_eq_some.mp hpath
  -- Nothing on the way lengthens, so nothing was cut.
  have hall : ∀ s : OsString, piece.Sublist s → s.Sublist (toOsString name) →
      s = toOsString name ∧ piece = s := by
    intro s hps hs
    have hlen : (toOsString name).length ≤ piece.length := by
      rw [← hdecode]
      exact percentDecode_length piece
    exact ⟨hs.eq_of_length_le (hlen.trans hps.length_le),
      hps.eq_of_length_le (hs.length_le.trans hlen)⟩
  obtain ⟨-, rfl⟩ := hall (toOsString name) hfrom (List.Sublist.refl _)
  refine ⟨hplain, (percentDecode_eq_iff _).mp hdecode, ?_, fun hroute b hb => ?_⟩
  · have hmem : percentEncode path (toOsString name) ∈ (parse path querySet
        (text (op.segments name) (op.query.map toOsString))).segments := by
      rw [hsegments]
      simp
    have hnot := not_dots_of_mem_segments hmem
    constructor
    · rintro rfl
      refine hnot.1 ?_
      rw [percentEncode_of_isKept path (by decide +kernel)]
      decide +kernel
    · rintro rfl
      refine hnot.2 ?_
      rw [percentEncode_of_isKept path (by decide +kernel)]
      decide +kernel
  · have hkept := (hall _ (hstripped hroute) (List.rdropWhile_prefix isStripped _).sublist).1
    have hne := List.ne_nil_of_mem (List.mem_of_getLast? hb)
    rw [← Option.some.inj ((List.getLast?_eq_getLast_of_ne_nil hne).symm.trans hb)]
    exact Bool.not_eq_true _ ▸ List.rdropWhile_eq_self_iff.mp hkept hne

/-- **CLIENT OPERATIONS REACH THEIR OWN SERVICE** exactly when the URL leaves the
    name alone. -/
theorem client_reaches_service {stack : HttpStack} {path querySet : EncodeSet}
    (hdoc : stack.Documented path querySet) (op : Operation) (name : String)
    (hname : Creatable name) : Reaches stack op name ↔ Untouched op name :=
  ⟨untouched_of_reaches hdoc, fun h => h.reaches hdoc hname.1⟩

/-! ## A stack, and a name that does not get through -/

/-- A stack that follows the standard and knows the queries of the client. -/
def standardStack : HttpStack where
  parseUrl url :=
    if (toOsString "http://beam-init/").isPrefixOf url then
      some (parse pathSet querySet (url.drop (toOsString "http://beam-init/").length))
    else none
  followOf query :=
    if query = some (toOsString "follow=true") then some true
    else if query = none ∨ query = some (toOsString "follow=false") then some false
    else none
  stateOf query :=
    [ServiceStatusKind.stopped, .running, .frozen, .stopping, .exited, .error].find?
      (fun kind => query == some (toOsString ("state=" ++ kindText kind)))

/-- A client and a server that follow the standard are as documented. -/
theorem standardStack_documented : standardStack.Documented pathSet querySet where
  url rest := by
    show (if (toOsString "http://beam-init/").isPrefixOf _ then _ else none) = _
    rw [if_pos (List.isPrefixOf_iff_prefix.mpr (List.prefix_append _ _)), List.drop_left]
  notFollowed := by decide +kernel
  followed := by decide +kernel
  state kind := by cases kind <;> decide +kernel

theorem client_reaches_service_web :
    Reaches standardStack (.stopService false) "web" ∧ Untouched (.stopService false) "web" := by
  have hreaches : Reaches standardStack (.stopService false) "web" :=
    (client_reaches_service standardStack_documented (.stopService false) "web"
      ⟨by decide, by decide +kernel⟩).mpr
      ⟨by decide +kernel, by decide +kernel, by decide +kernel, fun h => nomatch h⟩
  exact ⟨hreaches, (client_reaches_service standardStack_documented (.stopService false) "web"
    ⟨by decide, by decide +kernel⟩).mp hreaches⟩

/-- A service can be created with an escaped name, and the client's stop of it
    stops another service. -/
theorem stop_reaches_another_service :
    (∀ service, served standardStack ⟨.post, "/service/x%2F..%2Fweb", .service service⟩
        = some (.createService "x/../web" service))
      ∧ served standardStack ((Operation.stopService false).request "x/../web")
        = some (.stopService "web")
      ∧ ¬∀ op name, Creatable name → Reaches standardStack op name := by
  have hcreate : standardStack.parseUrl (toOsString ("http://beam-init" ++ "/service/x%2F..%2Fweb"))
      = some ⟨[toOsString "service", toOsString "x%2F..%2Fweb"], none⟩ := by decide +kernel
  have hcreated : pathName (toOsString "x%2F..%2Fweb") = some "x/../web" := by decide +kernel
  have hstop : standardStack.parseUrl
        (toOsString ("http://beam-init" ++ serviceActionPath "x/../web" "stop"))
      = some ⟨[toOsString "service", toOsString "web", toOsString "stop"], none⟩ := by
    decide +kernel
  have hstopped : pathName (toOsString "web") = some "web" := by decide +kernel
  have hserved : served standardStack ((Operation.stopService false).request "x/../web")
      = some (.stopService "web") := by
    show (standardStack.parseUrl
      (toOsString ("http://beam-init" ++ serviceActionPath "x/../web" "stop"))).bind _ = _
    rw [hstop, Option.bind_some]
    show (if toOsString "service" = toOsString "service" ∧ toOsString "web" ≠ [] then _ else none) = _
    have hfind : actionRoutes.find? (fun r => toOsString r.text == toOsString "stop") = some .stop :=
      find_route .stop
    rw [if_pos ⟨rfl, by decide +kernel⟩, hfind, Option.bind_some, hstopped]
    rfl
  refine ⟨fun service => ?_, hserved, fun hall => ?_⟩
  · rw [served, hcreate, Option.bind_some]
    show (if toOsString "service" = toOsString "service" ∧ toOsString "x%2F..%2Fweb" ≠ []
      then _ else none) = _
    rw [if_pos ⟨rfl, by decide +kernel⟩, hcreated]
    rfl
  · have hreaches := hall (.stopService false) "x/../web" ⟨by decide, by decide +kernel⟩
    rw [Reaches, hserved] at hreaches
    exact absurd (congrArg nameOf (Option.some.inj hreaches)) (by decide)

end BeamClientUrls
