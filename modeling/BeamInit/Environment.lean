import BeamInit.EnvFiles
import BeamInit.Refusals

/-! # Environment — what a service finds in its environment

    The environment of a created service is laid down in layers: what the
    password database knows of the user, a built-in path, the environment files,
    and the request on top.  A spawn then turns the map into a block of
    `key=value` entries. -/

namespace BeamEnvironment

open BeamApi BeamOs BeamLogs BeamService BeamManager BeamCommands BeamLifecycle BeamOperations
open BeamEnvFiles
  BeamSpawnArgs BeamMainLoop BeamConsistency BeamRefusals LastWins

/-! ## `build_environment` -/

def defaultUserPath : String := "/usr/local/bin:/usr/bin:/bin:/usr/local/games:/usr/games"

def defaultRootPath : String := "/usr/local/sbin:/usr/local/bin:/usr/sbin:/usr/bin:/sbin:/bin"

/-- What `getpwuid_r` answers with a buffer of some size; a found entry may have
    null pointers for its name and its directory. -/
inductive GetpwAnswer where
  | erange
  | notFound
  | found (pwName pwDir : Option OsString)
  | error (err : IoError)

/-- What `build_environment` asks the system for.  `getpwRSizeMax` is the answer of
    `sysconf`, with `none` for -1. -/
structure EnvSystem where
  getpwRSizeMax : Option NonZeroUsize
  getpwuidR : Nat → Nat → GetpwAnswer
  readToString : String → Except IoError String

structure UserInfo where
  user : OsString
  home : OsString
deriving DecidableEq

def usizeMax : Nat := 2 ^ 64 - 1

/-- The loop of `get_user_info`: the buffer is doubled until it is big enough. -/
def getpwLoop (getpwuidR : Nat → GetpwAnswer) (buflen : Nat) (hpos : 0 < buflen) :
    Except IoError (Option (Option OsString × Option OsString)) :=
  match getpwuidR buflen with
  | .erange =>
      if buflen * 2 ≤ usizeMax then getpwLoop getpwuidR (buflen * 2) (Nat.mul_pos hpos Nat.two_pos)
      else .error ⟨.other, none, "buffer too large"⟩
  | .notFound => .ok none
  | .found pwName pwDir => .ok (some (pwName, pwDir))
  | .error err => .error err
termination_by usizeMax + 1 - buflen

/-- The size of the buffer if `sysconf` does not say. -/
def defaultBuflen : NonZeroUsize := ⟨1024, by decide⟩

def getUserInfo (sys : EnvSystem) (user : Nat) : Except IoError (Option UserInfo) := do
  let buflen := sys.getpwRSizeMax.getD defaultBuflen
  match ← getpwLoop (sys.getpwuidR user) buflen.val buflen.property with
  | none => return none
  | some (none, _) => .error ⟨.other, none, "user is null"⟩
  | some (some user, home) => return some ⟨user, home.getD []⟩

/-- An error of the password database is printed, and the variables are left out. -/
def buildBaseEnvironment (sys : EnvSystem) (user : Nat) : BTreeMap OsString OsString :=
  match getUserInfo sys user with
  | .ok (some userInfo) =>
      ((∅ : BTreeMap OsString OsString).insert (toOsString "USER") userInfo.user).insert
        (toOsString "HOME") userInfo.home
  | .ok none => ∅
  | .error _ => ∅

/-- The built-in path, which depends on who the user is. -/
def insertPath (env : BTreeMap OsString OsString) (user : Nat) : BTreeMap OsString OsString :=
  if user = 0 then env.insert (toOsString "PATH") (toOsString defaultRootPath)
  else env.insert (toOsString "PATH") (toOsString defaultUserPath)

def buildEnvironment (sys : EnvSystem) (user : Nat) (envFiles : List String) :
    Except Panic (Except IoError (BTreeMap OsString OsString)) := do
  let env := insertPath (buildBaseEnvironment sys user) user
  match ← envFromFiles sys.readToString ∅ envFiles with
  | .error e => return .error e
  | .ok envf => return .ok (env.insertMany (envf.toList.map (Prod.map toOsString toOsString)))

/-- The answers the manager gets are those of `build_environment`. -/
def BuildsWith (os : Os) (sys : EnvSystem) : Prop :=
  ∀ user envFiles, buildEnvironment sys user envFiles = .ok (os.buildEnvironment user envFiles)

/-! ## The layers -/

/-- The variables a list of pairs of strings defines. -/
def asOsStrings (entries : List (String × String)) : List (OsString × OsString) :=
  entries.map (Prod.map toOsString toOsString)

/-- The value the request gives. -/
def requested (service : CreateService) (k : OsString) : Option OsString :=
  lastOf (asOsStrings service.env.toList) k

/-- The value of the last line that defines the variable, over the files in the order
    given and the lines in file order. -/
def lastDefined (texts : List String) (k : OsString) : Option OsString :=
  lastOf (asOsStrings (texts.flatMap definitions)) k

/-- The value every environment starts with. -/
def builtIn (sys : EnvSystem) (user : Nat) (k : OsString) : Option OsString :=
  if k = toOsString "PATH" then
    some (toOsString (if user = 0 then defaultRootPath else defaultUserPath))
  else
    match getUserInfo sys user with
    | .ok (some userInfo) =>
        if k = toOsString "HOME" then some userInfo.home
        else if k = toOsString "USER" then some userInfo.user
        else none
    | _ => none

theorem toOsString_injective' : Function.Injective toOsString := fun _ _ => toOsString_injective

/-- A file that can be read gives the definitions of its lines. -/
theorem envFromFile_eq {readToString : String → Except IoError String} {envFile contents : String}
    (h : readToString envFile = .ok contents) :
    envFromFile readToString envFile = .ok (.ok (.ofList (definitions contents) compare)) := by
  rw [envFromFile, h]
  dsimp only
  rw [envFromText_eq]
  rfl

/-- The files are read in order, and what a file defines goes over what those before
    it do. -/
theorem envFromFiles_ok {readToString : String → Except IoError String} {envFiles texts : List String}
    (h : envFiles.mapM readToString = .ok texts) (env : BTreeMap String String) :
    ∃ envf, envFromFiles readToString env envFiles = .ok (.ok envf)
      ∧ ∀ key : String, envf[key]? = (lastOf (texts.flatMap definitions) key).or env[key]? := by
  induction envFiles generalizing env texts with
  | nil =>
      obtain rfl := Except.ok.inj h
      exact ⟨env, rfl, fun key => rfl⟩
  | cons envFile envFiles ih =>
      rw [List.mapM_cons] at h
      obtain ⟨contents, hread, h⟩ := bind_eq_ok.mp h
      obtain ⟨rest, hrest, h⟩ := bind_eq_ok.mp h
      obtain rfl := Except.ok.inj h
      obtain ⟨envf, hloop, hget⟩ := ih hrest
        (env.insertMany (Std.ExtTreeMap.ofList (definitions contents) compare).toList)
      refine ⟨envf, ?_, fun key => ?_⟩
      · rw [envFromFiles, envFromFile_eq hread]
        exact hloop
      · rw [hget, getElem?_insertMany, lastOf_toList, getElem?_ofList, List.flatMap_cons, lastOf_append,
          Option.or_assoc]

/-- The first file that cannot be read ends it. -/
theorem envFromFiles_error {readToString : String → Except IoError String} {envFiles : List String}
    {e : IoError} (h : envFiles.mapM readToString = .error e) (env : BTreeMap String String) :
    envFromFiles readToString env envFiles = .ok (.error e) := by
  induction envFiles generalizing env with
  | nil => cases h
  | cons envFile envFiles ih =>
      rw [List.mapM_cons] at h
      cases hread : readToString envFile with
      | error e' =>
          rw [hread] at h
          cases h
          rw [envFromFiles, envFromFile, hread]
          rfl
      | ok contents =>
          cases hrest : envFiles.mapM readToString with
          | error e' =>
              rw [hread, hrest] at h
              cases h
              rw [envFromFiles, envFromFile_eq hread]
              exact ih hrest _
          | ok rest =>
              rw [hread, hrest] at h
              cases h

/-- A variable that is set has its new value, and the others keep theirs. -/
theorem getElem?_insert (env : BTreeMap OsString OsString) (key value k : OsString) :
    (env.insert key value)[k]? = if k = key then some value else env[k]? := by
  rw [Std.ExtTreeMap.getElem?_insert]
  simp only [Std.LawfulEqCmp.compare_eq_iff_eq, @eq_comm _ key k]

/-- The base environment with the default PATH has the built-in variables. -/
theorem getElem?_insertPath (sys : EnvSystem) (user : Nat) (k : OsString) :
    (insertPath (buildBaseEnvironment sys user) user)[k]? = builtIn sys user k := by
  have hpath : insertPath (buildBaseEnvironment sys user) user
      = (buildBaseEnvironment sys user).insert (toOsString "PATH")
        (toOsString (if user = 0 then defaultRootPath else defaultUserPath)) := by
    rw [insertPath]
    by_cases huser : user = 0
    · rw [if_pos huser, if_pos huser]
    · rw [if_neg huser, if_neg huser]
  rw [hpath, getElem?_insert, builtIn, buildBaseEnvironment]
  cases getUserInfo sys user with
  | error e => rfl
  | ok found =>
      cases found with
      | none => rfl
      | some userInfo =>
          dsimp only
          rw [getElem?_insert, getElem?_insert]
          rfl

/-- The environment of a user: the files over what every environment starts with. -/
theorem buildEnvironment_ok {sys : EnvSystem} {envFiles texts : List String}
    (h : envFiles.mapM sys.readToString = .ok texts) (user : Nat) :
    ∃ env, buildEnvironment sys user envFiles = .ok (.ok env)
      ∧ ∀ k : OsString, env[k]? = (lastDefined texts k).or (builtIn sys user k) := by
  obtain ⟨envf, hloop, hget⟩ := envFromFiles_ok h ∅
  refine ⟨(insertPath (buildBaseEnvironment sys user) user).insertMany (asOsStrings envf.toList), ?_,
    fun k => ?_⟩
  · rw [buildEnvironment, hloop]
    rfl
  · have hlast : lastOf (asOsStrings envf.toList) k = lastDefined texts k := by
      refine lastOf_map_congr toOsString_injective' toOsString (fun key => ?_) k
      rw [lastOf_toList, hget, Std.ExtTreeMap.getElem?_empty, Option.or_none]
    rw [getElem?_insertMany, getElem?_insertPath, hlast]

/-- A file that cannot be read fails the whole environment. -/
theorem buildEnvironment_error {sys : EnvSystem} {envFiles : List String} {e : IoError}
    (h : envFiles.mapM sys.readToString = .error e) (user : Nat) :
    buildEnvironment sys user envFiles = .ok (.error e) := by
  rw [buildEnvironment, envFromFiles_error h]
  rfl

/-! ## The environment of a created service -/

section Created

variable {os : Os} {sys : EnvSystem} {m m' : Machine} {credentials : Credentials} {name : String}
  {service : CreateService}

/-- The request comes before the files, the last file before the others, and all before what
    is built in. -/
theorem serviceEnvironment_ok (hos : BuildsWith os sys) (hname : name ≠ bootstrapName)
    {texts : List String} (hread : m.mgr.userEnvFiles.mapM sys.readToString = .ok texts) :
    ∃ env, serviceEnvironment os m credentials name service.env = .ok env
      ∧ ∀ k : OsString, env[k]? = (requested service k).or
          ((lastDefined texts k).or (builtIn sys credentials.uid k)) := by
  obtain ⟨svcEnv, hbuilt, hget⟩ := buildEnvironment_ok hread credentials.uid
  rw [hos] at hbuilt
  refine ⟨svcEnv.insertMany (asOsStrings service.env.toList), ?_, fun k => ?_⟩
  · rw [serviceEnvironment, if_neg hname, Except.ok.inj hbuilt]
    exact congrArg Except.ok (foldl_insert toOsString toOsString service.env svcEnv)
  · rw [getElem?_insertMany, hget]
    rfl

/-- A file that cannot be read fails the reading of all. -/
theorem mapM_error {readToString : String → Except IoError String} {envFiles : List String}
    {envFile : String} (hmem : envFile ∈ envFiles) {e : IoError} (h : readToString envFile = .error e) :
    ∃ e', envFiles.mapM readToString = .error e' := by
  induction envFiles with
  | nil => exact absurd hmem List.not_mem_nil
  | cons first envFiles ih =>
      rw [List.mapM_cons]
      rcases List.mem_cons.mp hmem with rfl | hrest
      · rw [h]
        exact ⟨e, rfl⟩
      · obtain ⟨e', he'⟩ := ih hrest
        cases readToString first with
        | error e => exact ⟨e, rfl⟩
        | ok contents =>
            rw [he']
            exact ⟨e', rfl⟩

/-- A file that cannot be read is the error of the request. -/
theorem serviceEnvironment_error (hos : BuildsWith os sys) (hname : name ≠ bootstrapName)
    {e : IoError} (hread : m.mgr.userEnvFiles.mapM sys.readToString = .error e) :
    serviceEnvironment os m credentials name service.env = .error (.buildEnvironment e.text) := by
  have hbuilt := buildEnvironment_error hread credentials.uid
  rw [hos] at hbuilt
  rw [serviceEnvironment, if_neg hname, Except.ok.inj hbuilt]

/-- A service that a request creates has the environment the request was given. -/
theorem config_of_created {env : BTreeMap OsString OsString} {reply : Except ServiceError Response}
    (henv : serviceEnvironment os m credentials name service.env = .ok env)
    (h : handleApiCommand os m (.createService name service) credentials = .ok (reply, m'))
    (hnew : m.get? name = none) {s : Service} (hget : m'.get? name = some s) :
    s.config = requestedConfig service env credentials := by
  rw [handleApiCommand] at h
  dsimp only at h
  rw [henv] at h
  dsimp only at h
  cases hcreate : createService m name (requestedConfig service env credentials) with
  | mk result m₁ =>
      rw [hcreate] at h
      rcases createService_ok hcreate with ⟨rfl, e, rfl⟩ | ⟨rfl, hshut, -, created, -, hconfig, rfl⟩
      · cases h
        cases hnew.symm.trans hget
      · obtain ⟨⟨result, m₂⟩, hstart, h⟩ := bind_eq_ok.mp h
        cases h
        have hcred : created.checkCredentials credentials = .ok () :=
          Service.checkCredentials_iff.mpr (Or.inr (by rw [hconfig]; rfl))
        obtain ⟨s', out, hentry, rfl⟩ := startService_ok hstart hshut get?_put_self hcred
        obtain rfl := Option.some.inj (get?_put_self.symm.trans hget)
        rw [← hconfig]
        cases (startEntry_ok hentry (Copy.refl created)).1 with
        | running hupdate => exact hupdate.config_eq
        | failed hupdate => exact hupdate.config_eq
        | noPty hupdate => exact hupdate.config_eq

/-- **THE LAYERS OF AN ENVIRONMENT**: the request's value, or else that of the last line
    of the files that defines the variable, or else the built-in one; and if a file
    cannot be read, nothing is created. -/
theorem created_environment (hos : BuildsWith os sys) (hname : name ≠ bootstrapName)
    {reply : Except ServiceError Response}
    (h : handleApiCommand os m (.createService name service) credentials = .ok (reply, m')) :
    (∀ texts, m.mgr.userEnvFiles.mapM sys.readToString = .ok texts → m.get? name = none →
        ∀ s, m'.get? name = some s → ∀ k : OsString, s.config.env[k]? =
          (requested service k).or ((lastDefined texts k).or (builtIn sys credentials.uid k)))
      ∧ ∀ envFile ∈ m.mgr.userEnvFiles, ∀ e, sys.readToString envFile = .error e →
          (∃ text, reply = .error (.buildEnvironment text)) ∧ m' = m := by
  constructor
  · intro texts hread hnew s hget k
    obtain ⟨env, henv, hlayers⟩ : ∃ env,
        serviceEnvironment os m credentials name service.env = .ok env ∧ ∀ k : OsString, env[k]? =
          (requested service k).or ((lastDefined texts k).or (builtIn sys credentials.uid k)) :=
      serviceEnvironment_ok hos hname hread
    rw [config_of_created henv h hnew hget]
    exact hlayers k
  · intro envFile hmem e hread
    obtain ⟨e', hread'⟩ := mapM_error hmem hread
    rw [handleApiCommand] at h
    dsimp only at h
    rw [serviceEnvironment_error hos hname hread'] at h
    cases h
    exact ⟨⟨e'.text, rfl⟩, rfl⟩

end Created

/-- What `build_environment` comes to; it never panics. -/
def builtEnvironment (sys : EnvSystem) (user : Nat) (envFiles : List String) :
    Except IoError (BTreeMap OsString OsString) :=
  match buildEnvironment sys user envFiles with
  | .ok built => built
  | .error _ => .error ⟨.other, none, "panic"⟩

/-- A system that builds with given files and users. -/
theorem buildsWith_builtEnvironment (os : Os) (sys : EnvSystem) :
    BuildsWith { os with buildEnvironment := builtEnvironment sys } sys := by
  intro user envFiles
  show _ = Except.ok (builtEnvironment sys user envFiles)
  rw [builtEnvironment]
  cases hread : envFiles.mapM sys.readToString with
  | error e => rw [buildEnvironment_error hread]
  | ok texts =>
      obtain ⟨env, hbuilt, -⟩ := buildEnvironment_ok hread user
      rw [hbuilt]

/-- A user the password database knows, and one file. -/
def webUser : EnvSystem where
  getpwRSizeMax := none
  getpwuidR _ _ := .found (some (toOsString "web")) none
  readToString _ := .ok "MODE=test\n"

def webOs : Os := { steadyOs 100 0 [] with buildEnvironment := builtEnvironment webUser }

theorem created_environment_web :
    ∃ reply m' s, handleApiCommand webOs (newMachine ["/etc/environment"] fiveLines)
        (.createService "web" webService) ⟨1000, 1000⟩ = .ok (reply, m')
      ∧ m'.get? "web" = some s
      ∧ ∀ k : OsString, s.config.env[k]? = (requested webService k).or
          ((lastDefined ["MODE=test\n"] k).or (builtIn webUser 1000 k)) := by
  have hresult : ((handleApiCommand webOs (newMachine ["/etc/environment"] fiveLines)
      (.createService "web" webService) ⟨1000, 1000⟩).toOption.map
        (fun outcome => (outcome.2.get? "web").isSome)) = some true := by decide +kernel
  obtain ⟨⟨reply, m'⟩, hok, hsome⟩ := Option.map_eq_some_iff.mp hresult
  obtain ⟨s, hget⟩ := Option.isSome_iff_exists.mp hsome
  exact ⟨reply, m', s, ok_of_toOption hok, hget,
    (created_environment (buildsWith_builtEnvironment (steadyOs 100 0 []) webUser) (by decide)
      (ok_of_toOption hok)).1 _ rfl rfl s hget⟩

/-! ## The block of a spawn -/

/-- A program's reading of an entry: what stands before and after the first `=`. -/
def splitEntry (entry : OsString) : Option (OsString × OsString) :=
  if 61 ∈ entry then some (entry.takeWhile (· ≠ 61), (entry.dropWhile (· ≠ 61)).tail) else none

/-- An entry whose key has no `=` is split where it was joined. -/
theorem splitEntry_envEntry {entry : OsString × OsString} (h : 61 ∉ entry.1) :
    splitEntry (envEntry entry) = some entry := by
  have hkey : ∀ b ∈ entry.1, decide (b ≠ 61) = true := by
    intro b hb
    exact decide_eq_true fun heq => h (heq ▸ hb)
  rw [splitEntry, envEntry, if_pos (List.mem_append_right _ List.mem_cons_self),
    List.takeWhile_append_of_pos hkey, List.dropWhile_append_of_pos hkey,
    List.takeWhile_cons_of_neg (by decide), List.dropWhile_cons_of_neg (by decide), List.append_nil,
    List.tail_cons]

/-- What the checks of `validate` come to. -/
def ValidEntry (entry : OsString × OsString) : Prop :=
  entry.1 ≠ [] ∧ 61 ∉ entry.1 ∧ 0 ∉ entry.1 ∧ 0 ∉ entry.2

/-- The check accepts just the valid entries. -/
theorem validateEntry_iff {entry : OsString × OsString} :
    validateEntry entry = .ok () ↔ ValidEntry entry := by
  rw [validateEntry, ValidEntry]
  split_ifs with hempty hequals hnul
  · exact iff_of_false not_false (fun h => h.1 hempty)
  · exact iff_of_false not_false (fun h => h.2.1 hequals)
  · exact iff_of_false not_false (fun h => hnul.elim h.2.2.1 h.2.2.2)
  · exact iff_of_true rfl ⟨hempty, hequals, not_or.mp hnul⟩

/-- A configuration is accepted if all its entries are valid. -/
theorem validate_iff {config : ServiceConfig} :
    config.validate = .ok () ↔ ∀ entry ∈ config.env.toList, ValidEntry entry := by
  rw [ServiceConfig.validate]
  generalize config.env.toList = entries
  induction entries with
  | nil => exact iff_of_true rfl fun entry hentry => absurd hentry List.not_mem_nil
  | cons entry entries ih =>
      rw [List.forall_mem_cons, ← ih, ← validateEntry_iff]
      show (validateEntry entry >>= fun _ => entries.forM validateEntry) = _ ↔ _
      rw [bind_eq_ok]
      exact ⟨fun ⟨(), hentry, hrest⟩ => ⟨hentry, hrest⟩, fun ⟨hentry, hrest⟩ => ⟨(), hentry, hrest⟩⟩

/-- A valid entry has no NUL. -/
theorem ValidEntry.not_mem_envEntry {entry : OsString × OsString} (h : ValidEntry entry) :
    0 ∉ envEntry entry := by
  obtain ⟨-, -, hkey, hvalue⟩ := h
  rw [envEntry, List.mem_append, List.mem_cons]
  rintro (hmem | hmem | hmem)
  · exact hkey hmem
  · exact absurd hmem (by decide)
  · exact hvalue hmem

/-- Without a NUL the bytes are taken as they are. -/
theorem cString_eq_ok {bytes : OsString} (h : 0 ∉ bytes) : cString bytes = .ok bytes := by
  rw [cString, if_neg h]

/-- No entry of an accepted environment has a NUL, so none is refused. -/
theorem envpStore_ok {config : ServiceConfig} (h : config.validate = .ok ()) :
    envpStore config = .ok (config.env.toList.map envEntry) := by
  rw [envpStore]
  have hvalid := validate_iff.mp h
  generalize config.env.toList = entries at hvalid
  induction entries with
  | nil => rfl
  | cons entry entries ih =>
      obtain ⟨hentry, hrest⟩ := List.forall_mem_cons.mp hvalid
      rw [List.mapM_cons, cString_eq_ok hentry.not_mem_envEntry, ih hrest]
      rfl

/-- **THE BLOCK READS BACK AS THE ENVIRONMENT** that was accepted: no entry is cut or
    refused, each key has one entry, and nothing else is defined by any. -/
theorem envp_reads_back (config : ServiceConfig) (h : config.validate = .ok ()) :
    ∃ envp, envpStore config = .ok envp
      ∧ (∀ entry ∈ envp, 0 ∉ entry)
      ∧ envp.map splitEntry = config.env.toList.map some
      ∧ ((envp.filterMap splitEntry).map Prod.fst).Nodup
      ∧ Std.ExtTreeMap.ofList (envp.filterMap splitEntry) compare = config.env
      ∧ (∀ entry ∈ envp, ∀ k v, splitEntry entry = some (k, v) → config.env[k]? = some v)
      ∧ ∀ other : ServiceConfig, other.validate = .ok () → envpStore other = .ok envp →
          other.env = config.env := by
  have hentries : ∀ config : ServiceConfig, config.validate = .ok () →
      ∀ entry ∈ config.env.toList, splitEntry (envEntry entry) = some entry :=
    fun config h entry hentry => splitEntry_envEntry (validate_iff.mp h entry hentry).2.1
  have hread : ∀ config : ServiceConfig, config.validate = .ok () →
      (config.env.toList.map envEntry).filterMap splitEntry = config.env.toList := by
    intro config h
    rw [List.filterMap_map]
    exact (List.filterMap_congr (hentries config h)).trans List.filterMap_some
  have hfill : ∀ config : ServiceConfig, config.validate = .ok () →
      Std.ExtTreeMap.ofList ((config.env.toList.map envEntry).filterMap splitEntry) compare
        = config.env := by
    intro config h
    rw [hread config h]
    exact ofList_perm_toList (List.Perm.refl _)
  refine ⟨config.env.toList.map envEntry, envpStore_ok h, fun entry hentry => ?_, ?_, ?_,
    hfill config h, fun entry hentry k v hentry' => ?_, fun other hother hsame => ?_⟩
  · obtain ⟨e, he, rfl⟩ := List.mem_map.mp hentry
    exact (validate_iff.mp h e he).not_mem_envEntry
  · rw [List.map_map]
    exact List.map_congr_left (hentries config h)
  · rw [hread config h]
    exact nodup_map_fst_toList config.env
  · obtain ⟨e, he, rfl⟩ := List.mem_map.mp hentry
    rw [hentries config h e he] at hentry'
    obtain rfl := Option.some.inj hentry'
    exact Std.ExtTreeMap.mem_toList_iff_getElem?_eq_some.mp he
  · rw [envpStore_ok hother] at hsame
    rw [← hfill other hother, Except.ok.inj hsame, hfill config h]

/-- An environment with `=` and bytes beyond ASCII in a value. -/
def oddConfig : ServiceConfig where
  cmd := "/bin/web"
  args := []
  env := .ofList [([65], [61, 200, 61]), ([66], [])] compare
  labels := ∅
  liveness := none
  pty := false
  credentials := ⟨1000, 1000⟩
  gracefulTerminationPeriod := 0

theorem envp_reads_back_odd : ∃ envp, envpStore oddConfig = .ok envp
    ∧ envp.map splitEntry = [some ([65], [61, 200, 61]), some ([66], [])] := by
  have hvalid : oddConfig.validate = .ok () := ok_of_toOption (by decide +kernel)
  obtain ⟨envp, hstore, -, hsplit, -⟩ := envp_reads_back oddConfig hvalid
  refine ⟨envp, hstore, hsplit.trans ?_⟩
  decide +kernel

end BeamEnvironment
