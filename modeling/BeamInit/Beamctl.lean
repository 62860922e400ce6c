import BeamInit.Api
import BeamInit.LastWins
import BeamInit.LexOrder
import BeamInit.Text

/-! # beamctl — which services a command line means

    A command names a service by a prefix of its name, or picks services by the
    labels they must carry.  Both are settled on the client, from what the server
    lists and shows. -/

namespace BeamCtl

open BeamApi LastWins LexOrder Text

/-! ## The client -/

/-- The text of a request that failed. -/
abbrev ClientError := String

/-- The server as the program sees it: every name is shown at most once. -/
structure Client where
  listServices : Except ClientError (BTreeMap String ApiServiceStatus)
  showService : String → Except ClientError ApiService

/-- Why the process ends before its work is done. -/
inductive Exit where
  | error (err : ClientError)
  | panic (message : String)
deriving DecidableEq

/-- `show_error_and_exit`. -/
def orExit {α : Type} : Except ClientError α → Except Exit α
  | .ok value => .ok value
  | .error err => .error (.error err)

/-! ## Naming a service by a prefix -/

def startsWith (key name : String) : Bool := (toOsString name).isPrefixOf (toOsString key)

/-- `BTreeMap::split_off`: the entries from the given key on. -/
def splitOff {V : Type} (m : BTreeMap String V) (key : String) : BTreeMap String V :=
  m.filter (fun k _ => (compare key k).isLE)

/-- The first of the names, if there is no second one. -/
def uniqueName (name : String) : List String → String
  | [foundName] => if foundName ≠ bootstrapName then foundName else name
  | _ => name

def prefixMatch (client : Client) (name : String) : Except Exit String := do
  let services ← orExit client.listServices
  let serviceNames := (splitOff services name).keys.takeWhile (startsWith · name)
  return uniqueName name serviceNames

/-- The names of the map are in the order of their bytes. -/
theorem lt_iff_bytes {s t : String} : s < t ↔ toOsString s < toOsString t := by
  rw [toOsString_flatMap, toOsString_flatMap, utf8_keepsOrder.flatMap_lt_iff]
  exact String.lt_iff

/-- `starts_with` is the prefix relation of the bytes. -/
theorem startsWith_eq (key name : String) :
    startsWith key name = decide (toOsString name <+: toOsString key) :=
  Bool.eq_iff_iff.mpr (List.isPrefixOf_iff_prefix.trans decide_eq_true_iff.symm)

/-- A name starts with itself. -/
theorem startsWith_self (name : String) : startsWith name name = true :=
  List.isPrefixOf_iff_prefix.mpr List.prefix_rfl

/-- Names are ordered by their bytes. -/
theorem isLE_compare (key k : String) :
    (compare key k).isLE = decide (¬ toOsString k < toOsString key) := by
  rw [Bool.eq_iff_iff, decide_eq_true_iff, ← lt_iff_bytes, ← Ordering.ne_gt_iff_isLE,
    Std.OrientedCmp.gt_iff_lt]
  exact not_congr compareOfLessAndEq_eq_lt

/-- **The walk is a scan**: from the given name on, the names up to the first that
    does not start with it are all that do. -/
theorem walk_eq_scan {V : Type} (services : BTreeMap String V) (name : String) :
    (splitOff services name).keys.takeWhile (startsWith · name)
      = services.keys.filter (startsWith · name) := by
  have hsorted : services.keys.Pairwise fun x y => ¬ toOsString y < toOsString x := by
    refine Std.ExtTreeMap.ordered_keys.imp fun {x y} hxy => ?_
    rw [← lt_iff_bytes]
    exact Std.Asymm.asymm x y (compareOfLessAndEq_eq_lt.mp hxy)
  have hblock := block_eq_filter toOsString (toOsString name) hsorted
  simp only [← isLE_compare, ← startsWith_eq] at hblock
  rw [splitOff, Std.ExtTreeMap.keys_filter_key, hblock]

/-- A list without repetitions has one element exactly if one thing is in it. -/
theorem eq_singleton_iff {α : Type} {l : List α} (h : l.Nodup) (a : α) :
    l = [a] ↔ ∀ b, b ∈ l ↔ b = a := by
  constructor
  · rintro rfl b
    exact List.mem_singleton
  · intro hmem
    exact List.perm_singleton.mp ((List.perm_ext_iff_of_nodup h (List.nodup_singleton a)).mpr
      fun b => (hmem b).trans List.mem_singleton.symm)

/-- One name is all that a prefix stands for. -/
def OnlyMatch (services : BTreeMap String ApiServiceStatus) (name found : String) : Prop :=
  ∀ key, key ∈ services ∧ startsWith key name = true ↔ key = found

/-- A name is the only match if filtering the names leaves just this one. -/
theorem onlyMatch_iff {services : BTreeMap String ApiServiceStatus} {name found : String} :
    OnlyMatch services name found ↔ services.keys.filter (startsWith · name) = [found] := by
  rw [eq_singleton_iff ((nodup_keys services).filter _)]
  simp only [OnlyMatch, List.mem_filter, Std.ExtTreeMap.mem_keys]

/-- A prefix is looked up among the names that the server lists. -/
theorem prefixMatch_eq {client : Client} {services : BTreeMap String ApiServiceStatus}
    (hlist : client.listServices = .ok services) (name : String) :
    prefixMatch client name
      = .ok (uniqueName name (services.keys.filter (startsWith · name))) := by
  rw [prefixMatch, hlist, ← walk_eq_scan]
  rfl

/-- The only match is taken, unless it is the bootstrap service. -/
theorem uniqueName_singleton (name found : String) :
    uniqueName name [found] = if found ≠ bootstrapName then found else name := rfl

/-- With no match or several the prefix is kept as it was given. -/
theorem uniqueName_of_ne {name : String} {names : List String} (h : ∀ found, names ≠ [found]) :
    uniqueName name names = name := by
  cases names with
  | nil => rfl
  | cons found names =>
      cases names with
      | nil => exact absurd rfl (h found)
      | cons other names => rfl

/-- **A PREFIX NAMES WHAT IT STANDS FOR** if that is one service and not the
    bootstrap one, and itself otherwise; so a name stands for itself, and a prefix
    of several names that is none of them names no service. -/
theorem prefix_names_service (client : Client) (services : BTreeMap String ApiServiceStatus)
    (hlist : client.listServices = .ok services) (name : String) :
    (∀ found, OnlyMatch services name found → found ≠ bootstrapName →
        prefixMatch client name = .ok found)
      ∧ ((¬∃ found, OnlyMatch services name found ∧ found ≠ bootstrapName) →
        prefixMatch client name = .ok name)
      ∧ (name ∈ services → prefixMatch client name = .ok name)
      ∧ (name ∉ services → (∃ a b, a ≠ b ∧ (a ∈ services ∧ startsWith a name = true)
          ∧ b ∈ services ∧ startsWith b name = true) →
        ∃ result, prefixMatch client name = .ok result ∧ result ∉ services)
      ∧ (splitOff services name).keys.takeWhile (startsWith · name)
        = services.keys.filter (startsWith · name) := by
  have hfound : ∀ found, OnlyMatch services name found → found ≠ bootstrapName →
      prefixMatch client name = .ok found := by
    intro found honly hne
    rw [prefixMatch_eq hlist, onlyMatch_iff.mp honly, uniqueName_singleton, if_pos hne]
  have hother : (¬∃ found, OnlyMatch services name found ∧ found ≠ bootstrapName) →
      prefixMatch client name = .ok name := by
    intro hnone
    rw [prefixMatch_eq hlist]
    by_cases hone : ∃ found, OnlyMatch services name found
    · obtain ⟨found, honly⟩ := hone
      rw [onlyMatch_iff.mp honly, uniqueName_singleton, if_neg fun hne => hnone ⟨found, honly, hne⟩]
    · rw [uniqueName_of_ne fun found hall => hone ⟨found, onlyMatch_iff.mpr hall⟩]
  refine ⟨hfound, hother, fun hmem => ?_, fun hnot => ?_, walk_eq_scan services name⟩
  · -- The name starts with itself, so nothing else can be the only match.
    by_cases hone : ∃ found, OnlyMatch services name found ∧ found ≠ bootstrapName
    · obtain ⟨found, honly, hne⟩ := hone
      rw [hfound found honly hne, ← (honly name).mp ⟨hmem, startsWith_self name⟩]
    · exact hother hone
  · rintro ⟨a, b, hab, ha, hb⟩
    refine ⟨name, hother ?_, hnot⟩
    rintro ⟨found, honly, -⟩
    exact hab (((honly a).mp ha).trans ((honly b).mp hb).symm)

/-- A server with two services, one name extending the other. -/
def sleepers : Client where
  listServices := .ok (.ofList [("sleep", .stopped), ("sleepy", .stopped)] compare)
  showService _ := .error "Service was not found"

theorem prefix_names_service_sleep : prefixMatch sleepers "sleep" = .ok "sleep" :=
  (prefix_names_service sleepers _ rfl "sleep").2.2.1
    (Std.ExtTreeMap.mem_ofList.mpr (by decide))

/-! ## Picking services by labels -/

/-- A key-value pair. -/
abbrev Label := String × String

inductive ParseLabelError where
  | invalidKeyValue (label : String)
  | notKeyValue
deriving DecidableEq

/-- `impl Display for ParseLabelError`. -/
def ParseLabelError.text : ParseLabelError → String
  | .notKeyValue => "not a key-value pair"
  | .invalidKeyValue value => "'" ++ value ++ "' is not a valid key-value pair"

def parseLabel (label : String) : Except ParseLabelError Label :=
  if label.toList.any isControl then .error (.invalidKeyValue label)
  else
    match splitOnce '=' label.toList with
    | none => .error .notKeyValue
    | some (key, value) =>
        if '=' ∈ value then .error (.invalidKeyValue label)
        else .ok (String.ofList key, String.ofList value)

/-- **What is accepted is a pair**, and it is the pair that was written. -/
theorem parseLabel_eq_ok {label key value : String} :
    parseLabel label = .ok (key, value) ↔
      label = key ++ "=" ++ value ∧ '=' ∉ key.toList ∧ '=' ∉ value.toList
        ∧ label.toList.any isControl = false := by
  have hlabel : label = key ++ "=" ++ value ↔ label.toList = key.toList ++ '=' :: value.toList := by
    rw [← String.toList_inj, String.toList_append, String.toList_append, List.append_assoc]
    rfl
  rw [parseLabel, hlabel]
  by_cases hcontrol : label.toList.any isControl = true
  · rw [if_pos hcontrol]
    exact iff_of_false (fun h => nomatch h) fun h => Bool.false_ne_true (h.2.2.2.symm.trans hcontrol)
  · rw [if_neg hcontrol]
    cases hsplit : splitOnce '=' label.toList with
    | none =>
        refine iff_of_false (fun h => nomatch h) fun h => splitOnce_eq_none.mp hsplit ?_
        rw [h.1]
        exact List.mem_append_right _ List.mem_cons_self
    | some pair =>
        obtain ⟨k, v⟩ := pair
        obtain ⟨heq, hk⟩ := splitOnce_eq_some.mp hsplit
        constructor
        · intro h
          dsimp only at h
          split_ifs at h with hv
          obtain ⟨rfl, rfl⟩ := Prod.mk.inj (Except.ok.inj h)
          rw [String.toList_ofList, String.toList_ofList]
          exact ⟨heq, hk, hv, Bool.not_eq_true _ ▸ hcontrol⟩
        · rintro ⟨htext, hkey, hvalue, -⟩
          rw [htext, splitOnce_append hkey] at hsplit
          obtain ⟨rfl, rfl⟩ := Prod.mk.inj (Option.some.inj hsplit)
          dsimp only
          rw [if_neg hvalue, String.ofList_toList, String.ofList_toList]

/-- `keys_match`: the labels under the selector's keys, those that are missing left
    out, against the selector's values. -/
def keysMatch (selector labels : BTreeMap String String) : Bool :=
  selector.keys.filterMap (labels[·]?) == selector.toList.map Prod.snd

/-- Whether a service is picked: the closure of `service_match` and of the list
    command. -/
def picks (client : Client) (selector : BTreeMap String String) (serviceName : String) :
    Except Exit Bool := do
  let service ← orExit (client.showService serviceName)
  return keysMatch selector service.labels

/-- What an iterator over names yields: each name is looked up only once the ones
    before it have been used, and looking it up can end the process. -/
inductive Names where
  | done
  | exit (exit : Exit)
  | next (name : String) (rest : Names)

def filterNames (client : Client) (selector : BTreeMap String String) : List String → Names
  | [] => .done
  | name :: names =>
      match picks client selector name with
      | .error exit => .exit exit
      | .ok true => .next name (filterNames client selector names)
      | .ok false => filterNames client selector names

/-- `service_match`.  The name is there if the selector is empty, and only then: the
    command line is refused otherwise. -/
def serviceMatch (client : Client) (name : Option String) (selector : List Label) : Names :=
  if selector = [] then
    match name with
    | none => .exit (.panic "name to be present")
    | some name =>
        match prefixMatch client name with
        | .error exit => .exit exit
        | .ok name => .next name .done
  else
    match orExit client.listServices with
    | .error exit => .exit exit
    | .ok services => filterNames client (.ofList selector compare) services.keys

/-- The loop of the stop, restart, freeze and thaw commands: the names a request was
    made for, and how the process ended if a request failed. -/
def forEach (request : String → Except ClientError Unit) : Names → List String × Option Exit
  | .done => ([], none)
  | .exit exit => ([], some exit)
  | .next name rest =>
      match orExit (request name) with
      | .error exit => ([name], some exit)
      | .ok () => (name :: (forEach request rest).1, (forEach request rest).2)

/-- `BTreeMap::retain` with the closure of the list command. -/
def retain (client : Client) (selector : BTreeMap String String) :
    List (String × ApiServiceStatus) → Except Exit (List (String × ApiServiceStatus))
  | [] => .ok []
  | entry :: entries => do
      let picked ← picks client selector entry.1
      let rest ← retain client selector entries
      return if picked then entry :: rest else rest

/-- The entries the list command prints. -/
def list (client : Client) (selector : List Label) :
    Except Exit (List (String × ApiServiceStatus)) := do
  let services ← orExit client.listServices
  if selector = [] then return services.toList
  else retain client (.ofList selector compare) services.toList

/-! ### The match is pointwise -/

/-- Leaving out what is missing gives all the wanted values only if nothing is
    missing and nothing has another value. -/
theorem filterMap_eq_iff {α β : Type} (f : α → Option β) (l : List (α × β)) :
    (l.map Prod.fst).filterMap f = l.map Prod.snd ↔ ∀ e ∈ l, f e.1 = some e.2 := by
  induction l with
  | nil => exact iff_of_true rfl (fun e he => absurd he List.not_mem_nil)
  | cons e l ih =>
      rw [List.map_cons, List.map_cons, List.forall_mem_cons, List.filterMap_cons]
      cases hf : f e.1 with
      | none =>
          dsimp only
          refine iff_of_false (fun h => ?_) (fun h => nomatch h.1)
          have hlen := congrArg List.length h
          have hle := List.length_filterMap_le f (l.map Prod.fst)
          rw [List.length_cons, List.length_map] at hlen
          rw [List.length_map] at hle
          omega
      | some b =>
          dsimp only
          rw [List.cons_eq_cons, Option.some_inj, ih]

/-- **The match is the pointwise check.** -/
theorem keysMatch_iff {selector labels : BTreeMap String String} :
    keysMatch selector labels = true ↔
      ∀ k v : String, selector[k]? = some v → labels[k]? = some v := by
  rw [keysMatch, beq_iff_eq, ← Std.ExtTreeMap.map_fst_toList_eq_keys, filterMap_eq_iff, Prod.forall]
  simp only [Std.ExtTreeMap.mem_toList_iff_getElem?_eq_some]

/-! ### The list is collapsed into a map -/

/-- No key is listed with two values. -/
def Consistent (selector : List Label) : Prop :=
  ∀ k v v', (k, v) ∈ selector → (k, v') ∈ selector → v = v'

/-! ### What is picked -/

/-- The service is shown with the last listed value of every listed key. -/
def Carries (client : Client) (selector : List Label) (name : String) : Prop :=
  ∃ service, client.showService name = .ok service
    ∧ ∀ label, LastListed selector label → service.labels[label.1]? = some label.2

/-- If no key is listed with two values, that is every listed pair. -/
theorem carries_iff_pairs {client : Client} {selector : List Label} (h : Consistent selector)
    {name : String} : Carries client selector name ↔
      ∃ service, client.showService name = .ok service
        ∧ ∀ label ∈ selector, service.labels[label.1]? = some label.2 := by
  constructor
  · rintro ⟨service, hshow, hlast⟩
    refine ⟨service, hshow, fun label hmem => ?_⟩
    obtain ⟨v, hv⟩ := exists_lastListed hmem
    rw [h label.1 label.2 v hmem hv.mem]
    exact hlast _ hv
  · rintro ⟨service, hshow, hall⟩
    exact ⟨service, hshow, fun label hlast => hall label hlast.mem⟩

/-- A service is picked if it carries every label of the selector. -/
theorem picks_eq_true {client : Client} {selector : List Label} {name : String} :
    picks client (.ofList selector compare) name = .ok true ↔ Carries client selector name := by
  rw [picks]
  cases hshow : client.showService name with
  | error err =>
      refine iff_of_false (fun h => nomatch h) ?_
      rintro ⟨service, hservice, -⟩
      rw [hshow] at hservice
      cases hservice
  | ok service =>
      have hmatch : keysMatch (.ofList selector compare) service.labels = true ↔
          ∀ label, LastListed selector label → service.labels[label.1]? = some label.2 := by
        rw [keysMatch_iff, Prod.forall]
        simp only [getElem?_ofList_eq_some]
      constructor
      · intro h
        exact ⟨service, hshow, hmatch.mp (Except.ok.inj h)⟩
      · rintro ⟨shown, hshown, hall⟩
        obtain rfl := Except.ok.inj (hshow.symm.trans hshown)
        exact congrArg Except.ok (hmatch.mpr hall)

/-- The names an iterator yields. -/
def Names.yielded : Names → List String
  | .done => []
  | .exit _ => []
  | .next name rest => name :: rest.yielded

/-- How the process ended while the iterator was looking a name up, if it did. -/
def Names.ended : Names → Option Exit
  | .done => none
  | .exit reason => some reason
  | .next _ rest => rest.ended

/-- Requests are made for names the iterator yields only. -/
theorem forEach_isPrefix (request : String → Except ClientError Unit) (names : Names) :
    (forEach request names).1 <+: names.yielded := by
  induction names with
  | done => exact List.nil_prefix
  | exit exit => exact List.nil_prefix
  | next name rest ih =>
      rw [forEach, Names.yielded]
      cases request name with
      | error err => exact ⟨rest.yielded, rfl⟩
      | ok _ => exact (List.prefix_cons_inj name).mpr ih

/-- The names that are yielded are among those given, in their order. -/
theorem filterNames_sublist (client : Client) (selector : BTreeMap String String)
    (names : List String) : (filterNames client selector names).yielded.Sublist names := by
  induction names with
  | nil => exact List.Sublist.refl []
  | cons name names ih =>
      rw [filterNames]
      cases picks client selector name with
      | error exit => exact List.nil_sublist _
      | ok picked =>
          cases picked with
          | false => exact ih.cons name
          | true => exact ih.cons_cons name

/-- A name that is yielded was picked. -/
theorem picks_of_yielded {client : Client} {selector : BTreeMap String String}
    {names : List String} {name : String}
    (h : name ∈ (filterNames client selector names).yielded) :
    picks client selector name = .ok true := by
  induction names with
  | nil => exact absurd h List.not_mem_nil
  | cons first names ih =>
      rw [filterNames] at h
      cases hpick : picks client selector first with
      | error exit =>
          rw [hpick] at h
          exact absurd h List.not_mem_nil
      | ok picked =>
          rw [hpick] at h
          cases picked with
          | false => exact ih h
          | true =>
              rcases List.mem_cons.mp h with rfl | hrest
              · exact hpick
              · exact ih hrest

/-- If every service is shown, none that is picked is left out. -/
theorem filterNames_complete {client : Client} {selector : BTreeMap String String}
    {names : List String} (h : ∀ name ∈ names, ∃ picked, picks client selector name = .ok picked) :
    (filterNames client selector names).ended = none
      ∧ ∀ name ∈ names, picks client selector name = .ok true →
        name ∈ (filterNames client selector names).yielded := by
  induction names with
  | nil => exact ⟨rfl, fun name hname => absurd hname List.not_mem_nil⟩
  | cons first names ih =>
      obtain ⟨⟨picked, hpick⟩, hrest⟩ := List.forall_mem_cons.mp h
      obtain ⟨hended, hall⟩ := ih hrest
      rw [filterNames, hpick]
      cases picked with
      | false =>
          refine ⟨hended, fun name hname htrue => ?_⟩
          rcases List.mem_cons.mp hname with rfl | hmem
          · exact absurd (Except.ok.inj (hpick.symm.trans htrue)) Bool.false_ne_true
          · exact hall name hmem htrue
      | true =>
          refine ⟨hended, fun name hname htrue => ?_⟩
          rcases List.mem_cons.mp hname with rfl | hmem
          · exact List.mem_cons_self
          · exact List.mem_cons_of_mem _ (hall name hmem htrue)

/-- The entries that are retained are those that are picked. -/
theorem mem_of_retain {client : Client} {selector : BTreeMap String String}
    {entries kept : List (String × ApiServiceStatus)}
    (h : retain client selector entries = .ok kept) (entry : String × ApiServiceStatus) :
    entry ∈ kept ↔ entry ∈ entries ∧ picks client selector entry.1 = .ok true := by
  induction entries generalizing kept with
  | nil =>
      obtain rfl := Except.ok.inj h
      exact ⟨fun hmem => absurd hmem List.not_mem_nil, And.left⟩
  | cons first entries ih =>
      rw [retain] at h
      cases hpick : picks client selector first.1 with
      | error exit =>
          rw [hpick] at h
          cases h
      | ok picked =>
          cases hrest : retain client selector entries with
          | error exit =>
              rw [hpick, hrest] at h
              cases h
          | ok rest =>
              rw [hpick, hrest] at h
              obtain rfl := Except.ok.inj h
              cases picked with
              | false =>
                  rw [if_neg Bool.false_ne_true, ih hrest, List.mem_cons]
                  refine ⟨fun hmem => ⟨.inr hmem.1, hmem.2⟩, ?_⟩
                  rintro ⟨rfl | hmem, htrue⟩
                  · exact absurd (Except.ok.inj (hpick.symm.trans htrue)) Bool.false_ne_true
                  · exact ⟨hmem, htrue⟩
              | true =>
                  rw [if_pos rfl, List.mem_cons, List.mem_cons, ih hrest]
                  constructor
                  · rintro (rfl | ⟨hmem, htrue⟩)
                    · exact ⟨.inl rfl, hpick⟩
                    · exact ⟨.inr hmem, htrue⟩
                  · rintro ⟨rfl | hmem, htrue⟩
                    · exact .inl rfl
                    · exact .inr ⟨hmem, htrue⟩

/-- If every service can be asked, none is left out by an error. -/
theorem retain_complete {client : Client} {selector : BTreeMap String String}
    {entries : List (String × ApiServiceStatus)}
    (h : ∀ entry ∈ entries, ∃ picked, picks client selector entry.1 = .ok picked) :
    ∃ kept, retain client selector entries = .ok kept := by
  induction entries with
  | nil => exact ⟨[], rfl⟩
  | cons first entries ih =>
      obtain ⟨⟨picked, hpick⟩, hrest⟩ := List.forall_mem_cons.mp h
      obtain ⟨rest, hrest⟩ := ih hrest
      rw [retain, hpick, hrest]
      exact ⟨_, rfl⟩

/-- A service that is shown is picked or not. -/
theorem picks_ok {client : Client} {selector : BTreeMap String String} {name : String}
    {service : ApiService} (h : client.showService name = .ok service) :
    ∃ picked, picks client selector name = .ok picked := by
  rw [picks, h]
  exact ⟨_, rfl⟩

/-- With a selector the names of the list are filtered. -/
theorem serviceMatch_selector {client : Client} {services : BTreeMap String ApiServiceStatus}
    (hlist : client.listServices = .ok services) {selector : List Label} (hne : selector ≠ []) :
    serviceMatch client none selector
      = filterNames client (.ofList selector compare) services.keys := by
  rw [serviceMatch, if_neg hne, hlist]
  rfl

/-- With a selector the entries of the list are retained. -/
theorem list_selector {client : Client} {services : BTreeMap String ApiServiceStatus}
    (hlist : client.listServices = .ok services) {selector : List Label} (hne : selector ≠ []) :
    list client selector = retain client (.ofList selector compare) services.toList := by
  rw [list, hlist]
  exact if_neg hne

/-- **A SELECTOR PICKS THE CARRIERS OF ITS LABELS**: exactly the services that have,
    for every listed key, the value listed last for it; so exactly those with every
    listed pair unless a key is listed with two values. -/
theorem selector_picks_carriers (client : Client) (services : BTreeMap String ApiServiceStatus)
    (hlist : client.listServices = .ok services) (selector : List Label) (hne : selector ≠ []) :
    (∀ request name, name ∈ (forEach request (serviceMatch client none selector)).1 →
        name ∈ services ∧ Carries client selector name)
      ∧ (∀ kept, list client selector = .ok kept → ∀ entry,
          entry ∈ kept ↔ entry ∈ services.toList ∧ Carries client selector entry.1)
      ∧ ((∀ name ∈ services, ∃ service, client.showService name = .ok service) →
          (serviceMatch client none selector).ended = none
            ∧ (∀ name, name ∈ (serviceMatch client none selector).yielded ↔
                name ∈ services ∧ Carries client selector name)
            ∧ ∃ kept, list client selector = .ok kept)
      ∧ (Consistent selector → ∀ name, Carries client selector name ↔
          ∃ service, client.showService name = .ok service
            ∧ ∀ label ∈ selector, service.labels[label.1]? = some label.2)
      ∧ (∀ wanted labels : BTreeMap String String, keysMatch wanted labels = true ↔
          ∀ k v : String, wanted[k]? = some v → labels[k]? = some v) := by
  have hyield : ∀ name, name ∈ (serviceMatch client none selector).yielded →
      name ∈ services ∧ Carries client selector name := by
    intro name hname
    rw [serviceMatch_selector hlist hne] at hname
    exact ⟨Std.ExtTreeMap.mem_keys.mp ((filterNames_sublist _ _ _).subset hname),
      picks_eq_true.mp (picks_of_yielded hname)⟩
  refine ⟨fun request name hname => hyield name ((forEach_isPrefix request _).subset hname),
    fun kept hkept entry => ?_, fun hshow => ?_, fun h name => carries_iff_pairs h,
    fun wanted labels => keysMatch_iff⟩
  · rw [list_selector hlist hne] at hkept
    rw [mem_of_retain hkept, picks_eq_true]
  · have hpicks : ∀ name ∈ services.keys,
        ∃ picked, picks client (.ofList selector compare) name = .ok picked := by
      intro name hname
      obtain ⟨service, hservice⟩ := hshow name (Std.ExtTreeMap.mem_keys.mp hname)
      exact picks_ok hservice
    obtain ⟨hended, hall⟩ := filterNames_complete hpicks
    have hkeys : ∀ entry ∈ services.toList, entry.1 ∈ services.keys := by
      intro entry hentry
      rw [← Std.ExtTreeMap.map_fst_toList_eq_keys]
      exact List.mem_map_of_mem hentry
    refine ⟨?_, fun name => ⟨hyield name, fun hname => ?_⟩, ?_⟩
    · rw [serviceMatch_selector hlist hne, hended]
    · rw [serviceMatch_selector hlist hne]
      exact hall name (Std.ExtTreeMap.mem_keys.mpr hname.1) (picks_eq_true.mpr hname.2)
    · rw [list_selector hlist hne]
      exact retain_complete fun entry hentry => hpicks entry.1 (hkeys entry hentry)

/-- The labels a service is started with are collapsed alike, so it is picked by
    the list it was started with. -/
theorem carries_started_with {client : Client} {name : String} {service : ApiService}
    (hshow : client.showService name = .ok service) {labels : List Label}
    (hlabels : service.labels = .ofList labels compare) : Carries client labels name :=
  ⟨service, hshow, fun _ hlast => hlabels ▸ getElem?_ofList_eq_some.mpr hlast⟩

/-- A server with one service, of high priority. -/
def prioritized : Client where
  listServices := .ok (.ofList [("web", .stopped)] compare)
  showService _ := .ok ⟨"web", [], .stopped, 0, .ofList [("prio", "high")] compare⟩

theorem selector_picks_carriers_web : Carries prioritized [("prio", "high")] "web"
    ∧ "web" ∈ (serviceMatch prioritized none [("prio", "high")]).yielded := by
  have hcarries : Carries prioritized [("prio", "high")] "web" := carries_started_with rfl rfl
  have hlisted : "web" ∈ (Std.ExtTreeMap.ofList [("web", ApiServiceStatus.stopped)] compare) :=
    Std.ExtTreeMap.mem_ofList.mpr (by decide)
  exact ⟨hcarries, ((selector_picks_carriers prioritized _ rfl [("prio", "high")]
    (List.cons_ne_nil _ _)).2.2.1 fun name _ => ⟨_, rfl⟩).2.1 "web" |>.mpr ⟨hlisted, hcarries⟩⟩

/-- Both labels are accepted, the service lacks the first, and it is picked. -/
theorem repeated_key_picks_another :
    parseLabel "prio=low" = .ok ("prio", "low") ∧ parseLabel "prio=high" = .ok ("prio", "high")
      ∧ (forEach (fun _ => .ok ()) (serviceMatch prioritized none [("prio", "low"), ("prio", "high")])).1
        = ["web"]
      ∧ ¬∀ client services selector name, client.listServices = .ok services → selector ≠ [] →
          name ∈ (serviceMatch client none selector).yielded →
          ∃ service, client.showService name = .ok service
            ∧ ∀ label ∈ selector, service.labels[label.1]? = some label.2 := by
  have hacted : (forEach (fun _ => .ok ()) (serviceMatch prioritized none
      [("prio", "low"), ("prio", "high")])).1 = ["web"] := by decide +kernel
  refine ⟨by decide +kernel, by decide +kernel, hacted, fun hall => ?_⟩
  have hyielded : "web" ∈ (serviceMatch prioritized none
      [("prio", "low"), ("prio", "high")]).yielded :=
    (forEach_isPrefix _ _).subset (by rw [hacted]; exact List.mem_singleton.mpr rfl)
  obtain ⟨service, hshow, hlabels⟩ := hall prioritized _ _ "web" rfl (List.cons_ne_nil _ _) hyielded
  have hlow := hlabels ("prio", "low") List.mem_cons_self
  rw [← Except.ok.inj hshow] at hlow
  exact absurd hlow (by decide +kernel)

end BeamCtl
