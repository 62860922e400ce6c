import BeamInit.Beamctl
import BeamInit.ClientCalls

/-! # Selection — which services of the server a command acts on

    The stop, restart, freeze and thaw commands of beamctl list the services, look
    each one up and act on it if its labels match, one request after the other.  The
    server goes on in between: other clients make requests, processes exit, and the
    command's own requests change what it looks up next.  What the command acts on is
    settled, service by service, at the moment the service is shown. -/

namespace BeamSelection

open BeamApi BeamOs BeamService BeamManager BeamCommands BeamMainLoop BeamOperations BeamConsistency
open BeamClientCalls BeamCtl LastWins UrlPath Runs
open BeamClientUrls (Untouched Operation standardStack standardStack_documented)

/-! ## The server's side -/

/-- What a service is shown as. -/
def shownAs (s : Service) : ApiService where
  cmd := s.config.cmd
  args := s.config.args
  status := s.state.serviceStatusPublisher.latest
  automaticRestartAttempts := s.state.automaticRestartAttempts
  labels := s.config.labels

section Server

variable {m : Machine} {os : Os} {credentials : Credentials}

/-- What is shown of entries of the map. -/
theorem mapM_listed (hm : Consistent m) (entries : List (String × Service))
    (h : ∀ entry ∈ entries, m.get? entry.1 = some entry.2) :
    (entries.map (fun entry => (entry.1, entry.2.state.status))).mapM (fun entry => do
        return (entry.1, ← entry.2.toApi))
      = (.ok (entries.map (fun entry => (entry.1, entry.2.state.serviceStatusPublisher.latest))) :
        Except Panic (List (String × ApiServiceStatus))) := by
  induction entries with
  | nil => rfl
  | cons entry entries ih =>
      obtain ⟨hget, hrest⟩ := List.forall_mem_cons.mp h
      rw [List.map_cons, List.mapM_cons, ih hrest, hm.shown entry.1 entry.2 hget]
      rfl

/-- The list has the services that the caller may see, as they are published. -/
theorem listServices_handled (os : Os) (credentials : Credentials) (hm : Consistent m) :
    ∃ services, handleEvent os m (.command .listServices credentials)
        = .ok (.response (.ok (.services services)), m)
      ∧ ∀ name status, services[name]? = some status ↔ ∃ s,
        getService m credentials name = .ok s
          ∧ s.state.serviceStatusPublisher.latest = status := by
  -- the entries of the caller
  obtain ⟨entries, hentries⟩ : ∃ entries, entries = m.mgr.services.toList.filter
      (fun entry => (entry.2.checkCredentials credentials).toOption.isSome) := ⟨_, rfl⟩
  have hmem : ∀ name s, (name, s) ∈ entries ↔ getService m credentials name = .ok s := by
    intro name s
    rw [hentries, List.mem_filter, getService_iff]
    refine and_congr Std.ExtTreeMap.mem_toList_iff_getElem?_eq_some ?_
    cases s.checkCredentials credentials with
    | error e => exact ⟨(nomatch ·), (nomatch ·)⟩
    | ok _ => exact ⟨fun _ => rfl, fun _ => rfl⟩
  have hdistinct : (entries.map (fun entry => (entry.1,
      entry.2.state.serviceStatusPublisher.latest))).Pairwise
        (fun a b => ¬ compare a.1 b.1 = .eq) := by
    rw [List.pairwise_map, hentries]
    exact Std.ExtTreeMap.distinct_keys_toList.filter _
  refine ⟨.ofList (entries.map (fun entry => (entry.1,
    entry.2.state.serviceStatusPublisher.latest))) compare, ?_, fun name status => ⟨?_, ?_⟩⟩
  · have hlisted := mapM_listed hm entries fun entry hentry =>
      (getService_iff.mp ((hmem entry.1 entry.2).mp hentry)).1
    rw [handleEvent, handleApiCommand]
    dsimp only
    rw [listServices, ← hentries, hlisted]
    rfl
  · intro hstatus
    obtain ⟨⟨name', s⟩, hin, heq⟩ := List.mem_map.mp (getElem?_ofList_eq_some.mp hstatus).mem
    cases heq
    exact ⟨s, (hmem name' s).mp hin, rfl⟩
  · rintro ⟨s, hget, rfl⟩
    exact Std.ExtTreeMap.getElem?_ofList_of_mem Std.ReflCmp.compare_self hdistinct
      (List.mem_map.mpr ⟨(name, s), (hmem name s).mpr hget, rfl⟩)

theorem showService_handled (hm : Consistent m) (name : String) :
    handleEvent os m (.command (.showService name) credentials)
      = .ok (.response ((getService m credentials name).map (fun s => .service (shownAs s))), m) := by
  rw [handleEvent, handleApiCommand]
  dsimp only
  cases hget : getService m credentials name with
  | error e => rfl
  | ok s =>
      have hshow : toApiService s = .ok (shownAs s) := by
        rw [toApiService, hm.shown name s (getService_iff.mp hget).1]
        rfl
      dsimp only
      rw [hshow]
      rfl

end Server

/-! ## beamctl's side -/

/-- The commands that take a selector and act. -/
inductive Selected where
  | stop (prune : Bool)
  | restart
  | freeze
  | thaw

def Selected.operation : Selected → Operation
  | .stop prune => .stopService prune
  | .restart => .restartService
  | .freeze => .freezeService
  | .thaw => .thawService

/-- The labels of the command line; without any, the command takes a name instead. -/
abbrev Selector := { labels : List Label // labels ≠ [] }

/-- `impl Display for StatusCode`, of the statuses of the server's own errors. -/
def statusText : Nat → String
  | 500 => "500 Internal Server Error"
  | 503 => "503 Service Unavailable"
  | status => toString status ++ " <unknown status code>"

/-- What `show_error_and_exit` prints. -/
def errorText : BeamClientCalls.ClientError → String
  | .transport text => "request failed: " ++ text
  | .decode text => "response decoding failed: " ++ text
  | .response status body =>
      if 400 ≤ status ∧ status < 500 then body
      else "server returned " ++ statusText status ++ ": " ++ body

/-- Where the command is: the names of `matching` are still to be looked up. -/
inductive Loop where
  | listing
  | matching (names : List String)
  | acting (name : String) (rest : List String)
  | exited (text : String)
deriving DecidableEq

def Loop.call (cmd : Selected) : Loop → Option Call
  | .listing => some .listServices
  | .matching (name :: _) => some (.named .showService name)
  | .acting name _ => some (.named cmd.operation name)
  | .matching [] | .exited _ => none

/-- What the program does with what its call returned. -/
def Loop.next (selector : Selector) : Loop → Except BeamClientCalls.ClientError Answer → Loop
  | _, .error e => .exited (errorText e)
  | .listing, .ok (.value (.services services)) => .matching services.keys
  | .matching (name :: rest), .ok (.value (.service service)) =>
      if keysMatch (.ofList selector.1 compare) service.labels then .acting name rest
      else .matching rest
  | .acting _ rest, .ok (.value .unit) => .matching rest
  -- a method returns a value of its own type
  | _, .ok _ => .exited ""

def Loop.acts : Loop → List String
  | .acting name _ => [name]
  | _ => []

/-- The names that are still to be dealt with. -/
def Loop.names : Loop → List String
  | .matching names => names
  | .acting name rest => name :: rest
  | .listing | .exited _ => []

/-- The command and its server. -/
structure Session where
  machine : Machine
  loop : Loop
  /-- The names that the command's action was requested for. -/
  requested : List String

def Session.start (m : Machine) : Session := ⟨m, .listing, []⟩

inductive SessionMove where
  /-- The server does something else. -/
  | server (move : Move)
  | called (os : Os) (x : Exchange)

section Session

variable (link : Link) (credentials : Credentials) (cmd : Selected) (selector : Selector)

/-- The next call of the command, if it returns. -/
def Session.call (w : Session) (os : Os) (x : Exchange) : Option Session :=
  match w.loop.call cmd with
  | none => none
  | some c =>
      match BeamClientCalls.call link os w.machine credentials [] x c with
      | .ok (some result, m') =>
          if SpawnsFresh m'.trace then
            some ⟨m', w.loop.next selector result, w.requested ++ w.loop.acts⟩
          else none
      | _ => none

inductive SessionStep : Session → SessionMove → Session → Prop where
  | server {w : Session} {move : Move} {m' : Machine} : Step w.machine move m' →
      SessionStep w (.server move) { w with machine := m' }
  | called {w w' : Session} {os : Os} {x : Exchange} :
      w.call link credentials cmd selector os x = some w' → SessionStep w (.called os x) w'

/-- A URL leaves the name alone. -/
def Plain (name : String) : Prop :=
  (Call.named .showService name).Clean ∧ (Call.named cmd.operation name).Clean

/-- What the libraries promise of a call: JSON gives back what it was made of, and
    the names that the caller is shown come through a URL. -/
def Faithful (w : Session) (move : SessionMove) (_ : Session) : Prop :=
  ∀ os x, move = .called os x → ∀ c, w.loop.call cmd = some c →
    (∀ name s, getService w.machine credentials name = .ok s → Plain cmd name)
      ∧ ∀ value m', managed link os w.machine credentials [] c
          = .ok (some (.ok (.value value)), m') → link.json.Lossless value

/-- The service is the caller's own, or the caller is root, and carries, for every
    listed key, the value listed last. -/
def Chosen (m : Machine) (name : String) : Prop :=
  ∃ s, m.get? name = some s
    ∧ (credentials.uid = 0 ∨ credentials.uid = s.config.credentials.uid)
    ∧ ∀ label, LastListed selector.1 label → s.config.labels[label.1]? = some label.2

/-- A session of the command, from the moment it lists the services. -/
def Session.Goes (m : Machine) (moves : List SessionMove) (w : Session) : Prop :=
  Run (Where (SessionStep link credentials cmd selector) (Faithful link credentials cmd))
    (.start m) moves w

end Session

/-! ## One call -/

section Calls

variable {link : Link} {path querySet : EncodeSet} {credentials : Credentials} {cmd : Selected}
  {selector : Selector} {w w' : Session} {os : Os} {x : Exchange}

theorem call_eq_some (h : w.call link credentials cmd selector os x = some w') :
    ∃ c result, w.loop.call cmd = some c
      ∧ call link os w.machine credentials [] x c = .ok (some result, w'.machine)
      ∧ SpawnsFresh w'.machine.trace
      ∧ w'.loop = w.loop.next selector result ∧ w'.requested = w.requested ++ w.loop.acts := by
  unfold Session.call at h
  split at h
  · cases h
  · rename_i c hc
    split at h
    · rename_i result m' hcall
      obtain ⟨hfresh, hw⟩ := Option.ite_none_right_eq_some.mp h
      cases hw
      exact ⟨c, result, hc, hcall, hfresh, rfl, rfl⟩
    · cases h

theorem call_reachable (hm : Reachable w.machine)
    (h : w.call link credentials cmd selector os x = some w') : Reachable w'.machine := by
  obtain ⟨c, result, -, hcall, hfresh, -⟩ := call_eq_some h
  rcases call_machine hcall with heq | ⟨event, reply, hhandle⟩
  · exact heq ▸ hm
  · exact reachable_snoc hm (.handled hhandle hfresh)

/-- A service is chosen if its labels match the selector of the caller. -/
theorem chosen_iff {m : Machine} {name : String} {s : Service}
    (hget : getService m credentials name = .ok s) :
    Chosen credentials selector m name ↔ keysMatch (.ofList selector.1 compare) s.config.labels := by
  obtain ⟨hentry, hcred⟩ := getService_iff.mp hget
  rw [keysMatch_iff]
  constructor
  · rintro ⟨s', hentry', -, hlabels⟩ k v hkv
    cases hentry.symm.trans hentry'
    exact hlabels (k, v) (getElem?_ofList_eq_some.mp hkv)
  · intro hall
    exact ⟨s, hentry, Service.checkCredentials_iff.mp hcred,
      fun label hlast => hall label.1 label.2 (getElem?_ofList_eq_some.mpr hlast)⟩

variable (hdoc : link.stack.Documented path querySet) (hm : Reachable w.machine)
  (hfaith : Faithful link credentials cmd w (.called os x) w')
  (h : w.call link credentials cmd selector os x = some w')

include hdoc hm hfaith h

/-- The list holds the names that the caller may see. -/
theorem listing_called (hloop : w.loop = .listing) :
    (∃ text, w'.loop = .exited text)
      ∨ w'.machine = w.machine ∧ ∃ services : BTreeMap String ApiServiceStatus,
          w'.loop = .matching services.keys
            ∧ ∀ name, name ∈ services.keys ↔ ∃ s, getService w.machine credentials name = .ok s := by
  obtain ⟨c, result, hc, hcall, -, hnext, -⟩ := call_eq_some h
  rw [hloop] at hc hnext
  cases hc
  cases result with
  | error e => exact .inl ⟨_, hnext⟩
  | ok answer =>
      obtain ⟨services, hhandle, hentries⟩ :=
        listServices_handled os credentials (reachable_consistent hm)
      have hjson := (hfaith os x rfl _ (by rw [hloop]; rfl)).2
      have hclean : Call.Clean .listServices := trivial
      have hanswer := call_answer hdoc hclean rfl hjson hcall
      have hmanaged : managed link os w.machine credentials [] .listServices
          = .ok (some (.ok (.value (.services services))), w.machine) :=
        managed_event rfl hhandle
      obtain ⟨hsame, hmachine⟩ := Prod.mk.inj (Except.ok.inj (hmanaged.symm.trans hanswer))
      cases hsame
      refine .inr ⟨hmachine.symm, services, hnext, fun name => ?_⟩
      rw [Std.ExtTreeMap.mem_keys, Std.ExtTreeMap.mem_iff_isSome_getElem?, Option.isSome_iff_exists]
      constructor
      · rintro ⟨status, hstatus⟩
        obtain ⟨s, hget, -⟩ := (hentries name status).mp hstatus
        exact ⟨s, hget⟩
      · rintro ⟨s, hget⟩
        exact ⟨_, (hentries name _).mpr ⟨s, hget, rfl⟩⟩

/-- A service is acted on next exactly if it is chosen when it is shown. -/
theorem matching_called {name : String} {rest : List String}
    (hloop : w.loop = .matching (name :: rest)) (hplain : Plain cmd name) :
    (∃ text, w'.loop = .exited text)
      ∨ w'.machine = w.machine
        ∧ (Chosen credentials selector w.machine name ∧ w'.loop = .acting name rest
          ∨ ¬ Chosen credentials selector w.machine name ∧ w'.loop = .matching rest) := by
  obtain ⟨c, result, hc, hcall, -, hnext, -⟩ := call_eq_some h
  rw [hloop] at hc hnext
  cases hc
  cases result with
  | error e => exact .inl ⟨_, hnext⟩
  | ok answer =>
      have hjson := (hfaith os x rfl _ (by rw [hloop]; rfl)).2
      have hanswer := call_answer hdoc hplain.1 rfl hjson hcall
      have hmanaged : managed link os w.machine credentials [] (.named .showService name)
          = .ok (some ((getService w.machine credentials name).map
              (fun s => Answer.value (.service (shownAs s)))), w.machine) := by
        rw [managed_event rfl (showService_handled (reachable_consistent hm) name)]
        cases getService w.machine credentials name <;> rfl
      obtain ⟨hsame, hmachine⟩ := Prod.mk.inj (Except.ok.inj (hmanaged.symm.trans hanswer))
      cases hget : getService w.machine credentials name with
      | error e =>
          rw [hget] at hsame
          cases hsame
      | ok s =>
          rw [hget] at hsame
          cases hsame
          refine .inr ⟨hmachine.symm, ?_⟩
          have hlabels : keysMatch (.ofList selector.1 compare) (shownAs s).labels = true
              ↔ Chosen credentials selector w.machine name := (chosen_iff hget).symm
          by_cases hchosen : Chosen credentials selector w.machine name
          · exact .inl ⟨hchosen, hnext.trans (if_pos (hlabels.mpr hchosen))⟩
          · exact .inr ⟨hchosen, hnext.trans (if_neg fun hkeys => hchosen (hlabels.mp hkeys))⟩

omit hdoc hm hfaith in
/-- Acting on a service is one request for it. -/
theorem acting_called {name : String} {rest : List String} (hloop : w.loop = .acting name rest) :
    (∃ text, w'.loop = .exited text) ∨ w'.loop = .matching rest := by
  obtain ⟨c, result, -, -, -, hnext, -⟩ := call_eq_some h
  rw [hloop] at hnext
  cases result with
  | error e => exact .inl ⟨_, hnext⟩
  | ok answer =>
      cases answer with
      | text _ | reader _ => exact .inl ⟨_, hnext⟩
      | value value =>
          cases value with
          | unit => exact .inr hnext
          | _ => exact .inl ⟨_, hnext⟩

end Calls

/-! ## Whole sessions -/

section Sessions

variable {link : Link} {path querySet : EncodeSet} {credentials : Credentials} {cmd : Selected}
  {selector : Selector} {m : Machine} {moves : List SessionMove} {w w' : Session}
  {move : SessionMove} {name : String}

/-- The service was chosen at some moment of the session. -/
def Once (link : Link) (credentials : Credentials) (cmd : Selected) (selector : Selector)
    (m : Machine) (moves : List SessionMove) (name : String) : Prop :=
  ∃ (before : List SessionMove) (w₁ : Session), before <+: moves ∧ w₁.Goes link credentials cmd selector m before
    ∧ Chosen credentials selector w₁.machine name

theorem Once.went (h : Once link credentials cmd selector m moves name) (move : SessionMove) :
    Once link credentials cmd selector m (moves ++ [move]) name := by
  obtain ⟨before, w₁, hbefore, hgoes, hchosen⟩ := h
  exact ⟨before, w₁, hbefore.trans (List.prefix_append _ _), hgoes, hchosen⟩

/-- What a session keeps: every name is dealt with once, and what is acted on was
    chosen when it was shown. -/
structure Sound (link : Link) (credentials : Credentials) (cmd : Selected) (selector : Selector)
    (m : Machine) (moves : List SessionMove) (w : Session) : Prop where
  goes : w.Goes link credentials cmd selector m moves
  reachable : Reachable w.machine
  plain : ∀ name ∈ w.loop.names, Plain cmd name
  nodup : (w.requested ++ w.loop.names).Nodup
  nothing : w.loop = .listing → w.requested = []
  chosen : ∀ name ∈ w.requested ++ w.loop.acts, Once link credentials cmd selector m moves name

theorem acts_sublist (loop : Loop) : loop.acts.Sublist loop.names := by
  cases loop with
  | acting name rest => exact List.singleton_sublist.mpr List.mem_cons_self
  | _ => exact List.nil_sublist _

/-- A step that only takes names off, and acts on what is chosen. -/
theorem Sound.next (h : Sound link credentials cmd selector m moves w)
    (hgoes : w'.Goes link credentials cmd selector m (moves ++ [move]))
    (hm : Reachable w'.machine) (hlisted : w'.loop ≠ .listing)
    (hnames : (w'.requested ++ w'.loop.names).Sublist (w.requested ++ w.loop.names))
    (hplain : ∀ name ∈ w'.loop.names, name ∈ w.loop.names)
    (hacts : ∀ name ∈ w'.requested ++ w'.loop.acts, name ∈ w.requested ++ w.loop.acts
      ∨ Chosen credentials selector w.machine name) :
    Sound link credentials cmd selector m (moves ++ [move]) w' where
  goes := hgoes
  reachable := hm
  plain name hname := h.plain name (hplain name hname)
  nodup := h.nodup.sublist hnames
  nothing hlisting := absurd hlisting hlisted
  chosen name hname := by
    rcases hacts name hname with hbefore | hchosen
    · exact (h.chosen name hbefore).went move
    · exact ⟨moves, w, List.prefix_append _ _, h.goes, hchosen⟩

/-- A call after which the command exits. -/
theorem Sound.exit (h : Sound link credentials cmd selector m moves w)
    (hgoes : w'.Goes link credentials cmd selector m (moves ++ [move]))
    (hm : Reachable w'.machine) {text : String} (hloop : w'.loop = .exited text)
    (hrequested : w'.requested = w.requested ++ w.loop.acts) :
    Sound link credentials cmd selector m (moves ++ [move]) w' := by
  have hnames : w'.loop.names = [] := by rw [hloop]; rfl
  have hacts : w'.loop.acts = [] := by rw [hloop]; rfl
  refine h.next hgoes hm (by rw [hloop]; exact nofun) ?_ ?_ fun name hname => .inl ?_
  · rw [hnames, List.append_nil, hrequested]
    exact (acts_sublist _).append_left _
  · rw [hnames]
    exact nofun
  · rw [hacts, List.append_nil, hrequested] at hname
    exact hname

/-- **The step lemma of the session.** -/
theorem sound_step (hdoc : link.stack.Documented path querySet)
    (h : Sound link credentials cmd selector m moves w)
    (hstep : Where (SessionStep link credentials cmd selector) (Faithful link credentials cmd)
      w move w') :
    Sound link credentials cmd selector m (moves ++ [move]) w' := by
  have hgoes : w'.Goes link credentials cmd selector m (moves ++ [move]) := h.goes.snoc hstep
  obtain ⟨hstep, hfaith⟩ := hstep
  cases hstep with
  | server hmove =>
      exact ⟨hgoes, reachable_snoc h.reachable hmove, h.plain, h.nodup, h.nothing,
        fun name hname => (h.chosen name hname).went _⟩
  | @called _ os x hcall =>
      have hm := call_reachable h.reachable hcall
      obtain ⟨c, result, hc, -, -, -, hrequested⟩ := call_eq_some hcall
      cases hloop : w.loop with
      | exited text => rw [hloop] at hc; cases hc
      | listing =>
          rcases listing_called hdoc h.reachable hfaith hcall hloop with
            ⟨text, hexit⟩ | ⟨-, services, hnext, hvisible⟩
          · exact h.exit hgoes hm hexit hrequested
          · rw [hloop, h.nothing hloop] at hrequested
            refine ⟨hgoes, hm, fun name hname => ?_, ?_, ?_, ?_⟩
            · rw [hnext] at hname
              obtain ⟨s, hget⟩ := (hvisible name).mp hname
              exact (hfaith os x rfl _ (by rw [hloop]; rfl)).1 name s hget
            · rw [hnext, hrequested]
              exact nodup_keys services
            · rw [hnext]
              exact nofun
            · rw [hnext, hrequested]
              exact nofun
      | matching names =>
          cases names with
          | nil => rw [hloop] at hc; cases hc
          | cons name rest =>
              have hnames : w.loop.names = name :: rest := by rw [hloop]; rfl
              have hsame : w'.requested = w.requested := by
                rw [hrequested, hloop]
                exact List.append_nil _
              rcases matching_called hdoc h.reachable hfaith hcall hloop
                  (h.plain name (hnames ▸ List.mem_cons_self)) with
                ⟨text, hexit⟩ | ⟨-, ⟨hchosen, hnext⟩ | ⟨-, hnext⟩⟩
              · exact h.exit hgoes hm hexit hrequested
              · -- chosen: it is acted on next
                refine h.next hgoes hm ?_ ?_ ?_ ?_ <;> rw [hnext]
                · exact nofun
                · rw [hsame, hnames]
                  exact List.Sublist.refl _
                · exact fun other hother => hnames ▸ hother
                · rw [hsame]
                  intro other hother
                  rcases List.mem_append.mp hother with hother | hother
                  · exact .inl (List.mem_append_left _ hother)
                  · cases List.mem_singleton.mp hother
                    exact .inr hchosen
              · -- not chosen: it is left out
                refine h.next hgoes hm ?_ ?_ ?_ ?_ <;> rw [hnext]
                · exact nofun
                · rw [hsame, hnames]
                  exact (List.sublist_cons_self name rest).append_left _
                · exact fun other hother => hnames ▸ List.mem_cons_of_mem _ hother
                · rw [hsame]
                  intro other hother
                  rcases List.mem_append.mp hother with hother | hother
                  · exact .inl (List.mem_append_left _ hother)
                  · exact nomatch hother
      | acting name rest =>
          have hnames : w.loop.names = name :: rest := by rw [hloop]; rfl
          rcases acting_called hcall hloop with ⟨text, hexit⟩ | hnext
          · exact h.exit hgoes hm hexit hrequested
          · refine h.next hgoes hm ?_ ?_ ?_ ?_ <;> rw [hnext]
            · exact nofun
            · rw [hrequested, hnames, hloop, List.append_assoc]
              exact List.Sublist.refl _
            · exact fun other hother => hnames ▸ List.mem_cons_of_mem _ hother
            · rw [hrequested]
              intro other hother
              rcases List.mem_append.mp hother with hother | hother
              · exact .inl hother
              · exact nomatch hother

end Sessions

end BeamSelection
