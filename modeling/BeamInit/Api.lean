import Mathlib

/-! # The API types — what beam-init and its clients exchange

    The request and response types of the `beam-init-api` crate, together with
    the small system types they are built from.  A `BTreeMap` is the ordered,
    extensional tree map of the standard library: two maps are equal exactly
    when they hold the same entries, and iteration is in key order. -/

namespace BeamApi

/-- The ordered map of the Rust standard library. -/
abbrev BTreeMap (K V : Type) [Ord K] : Type := Std.ExtTreeMap K V compare

/-- `pid_t`; the code only compares pids.  A `c_int` is an `Int`, narrowed only in
    `MonitorCommand::ser`. -/
abbrev Pid := Int

/-- An `OsString`: any byte string, not necessarily UTF-8. -/
abbrev OsString := List UInt8

/-- The bytes of a `String` converted with `.into()`. -/
def toOsString (s : String) : OsString := s.toUTF8.toList

/-- The loop of `ByteArray.toList` reads what is left behind what it has read. -/
theorem toList_loop (bytes : ByteArray) (read : Nat) (done : List UInt8) :
    ByteArray.toList.loop bytes read done = done.reverse ++ bytes.data.toList.drop read := by
  fun_induction ByteArray.toList.loop bytes read done with
  | case1 read done hmore ih =>
      have hlen : read < bytes.data.toList.length := by simpa using hmore
      have hhead : bytes.get! read = bytes.data.toList[read] := getElem!_pos bytes.data read hmore
      rw [ih, List.reverse_cons, List.append_assoc, hhead, List.singleton_append,
        List.getElem_cons_drop]
  | case2 read done hend =>
      rw [List.drop_of_length_le (by simpa using hend), List.append_nil]

/-- The bytes of a string are its UTF-8 array. -/
theorem toOsString_eq (s : String) : toOsString s = s.toByteArray.data.toList := by
  rw [toOsString, ByteArray.toList, toList_loop]
  simp

@[simp] theorem toOsString_append (s t : String) :
    toOsString (s ++ t) = toOsString s ++ toOsString t := by
  rw [toOsString_eq, toOsString_eq, toOsString_eq, String.toByteArray_append,
    ByteArray.toList_data_append]

/-- Two strings with the same bytes are the same. -/
theorem toOsString_injective {s t : String} (h : toOsString s = toOsString t) : s = t := by
  rw [toOsString_eq, toOsString_eq] at h
  exact String.toByteArray_inj.mp (ByteArray.ext (Array.toList_inj.mp h))

/-- The bytes of a string are those of its characters, one after the other. -/
theorem toOsString_flatMap (s : String) : toOsString s = s.toList.flatMap String.utf8EncodeChar := by
  rw [toOsString_eq, ← String.utf8Encode_toList, List.utf8Encode]
  exact List.toList_data_toByteArray

/-- `String::from_utf8` accepts the bytes of a string and nothing else. -/
theorem fromUTF8?_eq_some {bytes : List UInt8} {s : String} :
    String.fromUTF8? ⟨bytes.toArray⟩ = some s ↔ bytes = toOsString s := by
  rw [toOsString_eq]
  constructor
  · intro h
    rw [String.fromUTF8?] at h
    split at h
    · rw [← Option.some.inj h]
      rfl
    · cases h
  · rintro rfl
    rw [String.fromUTF8?, dif_pos s.isValidUTF8]
    rfl

/-- `BOOTSTRAP_NAME`. -/
def bootstrapName : String := "bootstrap"

/-- A `Duration`, in nanoseconds. -/
abbrev Duration := Nat

/-- Configuration for an HTTP liveness probe. -/
structure Probe where
  path : String
  port : Nat
  maxRetries : Nat
  initialDelay : Duration
  period : Duration
  failureThreshold : Nat
deriving DecidableEq

/-- Request body for creating and starting a service. -/
structure CreateService where
  cmd : String
  args : List String
  env : BTreeMap String String
  liveness : Option Probe
  pty : Bool
  labels : BTreeMap String String
  gracefulTerminationPeriod : Nat
deriving DecidableEq

/-- The result of a service process exiting, as the API reports it. -/
inductive ApiExitStatus where
  | code (code : Int)
  | signal (signal : Int) (coreDumped : Bool)
deriving DecidableEq

/-- Current runtime state of a service, as the API reports it. -/
inductive ApiServiceStatus where
  | stopped
  | running (mainPid : Pid) (pty : Option String)
  | frozen (mainPid : Pid) (pty : Option String)
  | stopping (mainPid : Pid) (prune : Bool) (willRestart : Bool)
  | exited (status : ApiExitStatus)
  | error (err : String)
deriving DecidableEq

/-- Description and current state of a service. -/
structure ApiService where
  cmd : String
  args : List String
  status : ApiServiceStatus
  automaticRestartAttempts : Nat
  labels : BTreeMap String String
deriving DecidableEq

end BeamApi
