import BeamInit.Service

/-! # The arguments of a spawn — C strings and the environment block

    `spawn_service` first turns the command, the arguments and the environment
    into NUL-terminated strings; an interior NUL fails the spawn before any
    process exists.  What the forked processes then do is one answer of the
    system: the pid that comes back on the pid pipe, or the error. -/

namespace BeamSpawnArgs

open BeamApi BeamOs BeamService

/-- `CString::new`: the bytes, unless one of them is NUL; the `NulError` is turned into
    an `io::Error`, which does not tell where. -/
def cString (bytes : OsString) : Except IoError OsString :=
  if 0 ∈ bytes then .error ⟨.other, none, "data provided contains a nul byte"⟩ else .ok bytes

/-- One entry of the environment block: key, `=`, value. -/
def envEntry (entry : OsString × OsString) : OsString := entry.1 ++ 61 :: entry.2

def envpStore (config : ServiceConfig) : Except IoError (List OsString) :=
  config.env.toList.mapM (fun entry => cString (envEntry entry))

/-- `spawn_service`; a service with a controlling terminal comes back with the
    command pipe of its monitor, which then is its main process. -/
def spawnService (os : StartOutcome) (config : ServiceConfig) (hasCtty : Bool) :
    Except IoError ServiceProcess := do
  let _cmd ← cString (toOsString config.cmd)
  let _args ← config.args.mapM (fun arg => cString (toOsString arg))
  let _envp ← envpStore config
  let (pid, run) ← os.spawn
  return ⟨pid, if hasCtty then some ⟨pid⟩ else none, run⟩

/-- A successful spawn is one the system answered with a pid; the process has a
    monitor exactly when it has a controlling terminal. -/
theorem spawnService_ok {os : StartOutcome} {config : ServiceConfig} {hasCtty : Bool}
    {process : ServiceProcess} (h : spawnService os config hasCtty = .ok process) :
    os.spawn = .ok (process.mainPid, process.run)
      ∧ process.monitorTx = if hasCtty then some ⟨process.mainPid⟩ else none := by
  rw [spawnService] at h
  cases hcmd : cString (toOsString config.cmd) with
  | error e => rw [hcmd] at h; exact nomatch h
  | ok cmd =>
      cases hargs : config.args.mapM (fun arg => cString (toOsString arg)) with
      | error e => rw [hcmd, hargs] at h; exact nomatch h
      | ok args =>
          cases henv : envpStore config with
          | error e => rw [hcmd, hargs, henv] at h; exact nomatch h
          | ok envp =>
              cases hspawn : os.spawn with
              | error e => rw [hcmd, hargs, henv, hspawn] at h; exact nomatch h
              | ok answer =>
                  rw [hcmd, hargs, henv, hspawn] at h
                  obtain ⟨pid, run⟩ := answer
                  cases h
                  exact ⟨rfl, rfl⟩

end BeamSpawnArgs
