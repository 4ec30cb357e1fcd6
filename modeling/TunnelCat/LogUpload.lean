import Mathlib.Data.List.MinMax
import TunnelCat.Runs
import TunnelCat.Table

/-!
The logs that end-user devices upload (`snc-arbiter/log_upload_client_api.go`, `handler.go`,
`log_store.go`) and the switches against it (`db.go`). The user of a device is the one of its latest
sample in `client_conn_stats`, where clients report their own name and time.

Only the client's own endpoint asks the switches, and it goes on where a row is missing or a read
fails (`client_logs_permitted`).
-/
namespace TunnelCat.LogUpload
open Runs List

structure Prefs where
  logUploadEnabled : Bool
  logUploadAdminDisabled : Bool
deriving DecidableEq

structure Sample where
  ts : Int
  username : String
  deviceID : String

structure LogWork where
  nodeType : String
  nodeID : String
  username : String
  data : List UInt8
deriving DecidableEq

/-- The tables, the clock in Unix seconds, and the logs that wait to be written. -/
structure Arbiter where
  clock : Int
  settings : Table String String
  users : Table String Prefs
  connStats : List Sample
  workCh : List LogWork

inductive Call
  | getSetting
  | setSetting
  | usernameForDeviceID
  | userLogUploadPrefs
  | updateUser
  | readBody
  | insertConnStats
  | connStatsOlderThan
  | mkdirAll
  | appendGzipJSONL
  | deleteConnStatsOlderThan

inductive Auth
  | missing
  | wrong
  | right
deriving DecidableEq

structure Upload where
  auth : Auth
  nodeID : String
  nodeType : String
  body : List UInt8

structure Payload where
  username : String
  ts : Int

/-- A request, the job that archives samples, or the writer of logs. A body that does
    not decode is `none`. -/
inductive Event
  | apiLogClientUpload (u : Upload)
  | apiLogUpload (u : Upload)
  | apiClientConnStatsUpload (auth : Auth) (nodeID : String) (payload : Option Payload)
  | apiLogClientUploadPrefSet (auth : Auth) (nodeID : String) (enabled : Option Bool)
  | setGlobalLogUploadEnabled (enabled : Bool)
  | setUserLogUploadAdminDisabled (username : String) (disabled : Bool)
  | createUser (username : String)
  | archiveOldConnStats
  | write

/-- An event with the seconds since the last one, the calls that fail, and which of
    several latest samples a query returns. -/
structure Input where
  after : Nat
  fails : Call → Bool
  ties : Nat
  event : Event

inductive Response
  | ok
  | error (status : Nat) (message : String)
deriving DecidableEq

inductive Endpoint
  | client
  | node
deriving DecidableEq

/-- What a step shows: the response, the log that was taken, the device and user of a
    sample that was stored, and the log that was written. -/
structure Shown where
  response : Response
  took : Option (Endpoint × LogWork)
  reported : Option (String × String)
  wrote : Option LogWork

def answer (r : Response) : Shown := ⟨r,none,none,none⟩

def jsonErr (message : String) (status : Nat) : Shown := answer (.error status message)

def logUploadGlobalSetting : String := "log_upload_global_enabled"

variable (s : Arbiter) (i : Input) (deviceID username : String) (u : Upload) (auth : Auth) (nodeID : String)

def globalLogUploadEnabled : Bool :=
  if i.fails .getSetting then true
  else
    match s.settings.lookup logUploadGlobalSetting with
    | none => true
    | some val => val ≠ "0"

def userLogUploadPrefs : Bool × Bool :=
  if username = "" || i.fails .userLogUploadPrefs then (true,false)
  else
    match s.users.lookup username with
    | none => (true,false)
    | some p => (p.logUploadEnabled,p.logUploadAdminDisabled)

def logUploadAllowed : Bool :=
  if !globalLogUploadEnabled s i then false
  else if username = "" then true
  else (userLogUploadPrefs s i username).1 && !(userLogUploadPrefs s i username).2

def Arbiter.latest : List Sample :=
  let rows := s.connStats.filter (fun r => r.deviceID = deviceID)
  rows.filter (fun r => rows.all (fun r' => r'.ts ≤ r.ts))

def usernameForDeviceID : String :=
  if deviceID = "" || i.fails .usernameForDeviceID then ""
  else (((s.latest deviceID)[i.ties % (s.latest deviceID).length]?).map Sample.username).getD ""

def validNodeType (t : String) : Bool :=
  ["android","windows","macos","linux","ios","control","exit","arbiter"].contains t

def nodeTypeOf (t : String) : String := if validNodeType t then t else "android"

def validLogNodeID (id : String) : Bool :=
  4 ≤ id.toList.length && id.toList.length ≤ 64 &&
    id.toList.all (fun c => ('a' ≤ c && c ≤ 'z') || ('A' ≤ c && c ≤ 'Z') || ('0' ≤ c && c ≤ '9') || c = '-' || c = '_')

def nodeLogMaxLen : Nat := 50 * 1024 * 1024

def logQueueDepth : Nat := 128

def store (s : Arbiter) (e : Endpoint) (w : LogWork) : Arbiter × Shown :=
  if !validLogNodeID w.nodeID then (s,jsonErr "store error" 500)
  else if s.workCh.length < logQueueDepth then
    ({ s with workCh := s.workCh ++ [w] },{ answer .ok with took := some (e,w) })
  else (s,answer .ok)

def Upload.work (username : String) : LogWork :=
  ⟨nodeTypeOf u.nodeType,u.nodeID,username,u.body.take (nodeLogMaxLen + 1)⟩

def apiLogClientUpload : Arbiter × Shown :=
  if u.auth ≠ .right then (s,jsonErr "unauthorized" 401)
  else if u.nodeID = "" then (s,jsonErr "X-Node-ID required" 400)
  else if i.fails .readBody then (s,jsonErr "read error" 400)
  else
    let username := usernameForDeviceID s i u.nodeID
    if !logUploadAllowed s i username then (s,jsonErr "log upload disabled for this account" 403)
    else store s .client (u.work username)

def apiLogUpload : Arbiter × Shown :=
  match u.auth with
  | .missing => (s,jsonErr "X-Node-Token required" 401)
  | .wrong => (s,jsonErr "unauthorized" 401)
  | .right =>
    if u.nodeID = "" then (s,jsonErr "X-Node-ID required" 400)
    else if i.fails .readBody then (s,jsonErr "read error" 400)
    else store s .node (u.work (usernameForDeviceID s i u.nodeID))

def apiClientConnStatsUpload (payload : Option Payload) :
    Arbiter × Shown :=
  if auth ≠ .right then (s,jsonErr "unauthorized" 401)
  else if nodeID = "" then (s,jsonErr "X-Node-ID required" 400)
  else
    match payload with
    | none => (s,jsonErr "bad request" 400)
    | some p =>
      if p.username = "" then (s,jsonErr "username required" 400)
      else if i.fails .insertConnStats then (s,jsonErr "store error" 500)
      else
        let ts := if p.ts = 0 then s.clock else p.ts
        ({ s with connStats := s.connStats ++ [⟨ts,p.username,nodeID⟩] },
          { answer .ok with reported := some (nodeID,p.username) })

def Arbiter.updateUser (f : Prefs → Prefs) : Arbiter :=
  match s.users.lookup username with
  | none => s
  | some p => { s with users := s.users.insert username (f p) }

def apiLogClientUploadPrefSet (enabled : Option Bool) :
    Arbiter × Shown :=
  if auth ≠ .right then (s,jsonErr "unauthorized" 401)
  else if nodeID = "" then (s,jsonErr "X-Node-ID required" 400)
  else
    let username := usernameForDeviceID s i nodeID
    if username = "" then (s,jsonErr "no account resolved for this device yet" 409)
    else
      match enabled with
      | none => (s,jsonErr "bad request" 400)
      | some enabled =>
        if i.fails .updateUser then (s,jsonErr "internal error" 500)
        else (s.updateUser username (fun p => { p with logUploadEnabled := enabled }),answer .ok)

def setGlobalLogUploadEnabled (enabled : Bool) : Arbiter × Shown :=
  if i.fails .setSetting then (s,jsonErr "internal error" 500)
  else ({ s with settings := s.settings.insert logUploadGlobalSetting (if enabled then "1" else "0") },answer .ok)

def setUserLogUploadAdminDisabled (disabled : Bool) : Arbiter × Shown :=
  if i.fails .updateUser then (s,jsonErr "internal error" 500)
  else (s.updateUser username (fun p => { p with logUploadAdminDisabled := disabled }),answer .ok)

def createUser : Arbiter :=
  match s.users.lookup username with
  | some _ => s
  | none => { s with users := s.users.insert username ⟨true,false⟩ }

def statsRetention : Int := 30 * 24 * 3600

def archiveOldConnStats : Arbiter :=
  if i.fails .connStatsOlderThan || i.fails .mkdirAll || i.fails .appendGzipJSONL || i.fails .deleteConnStatsOlderThan then s
  else { s with connStats := s.connStats.filter (fun r => s.clock - statsRetention ≤ r.ts) }

def write : Arbiter × Shown :=
  match s.workCh with
  | [] => (s,answer .ok)
  | w :: rest => ({ s with workCh := rest },{ answer .ok with wrote := some w })

def act : Arbiter × Shown :=
  match i.event with
  | .apiLogClientUpload u => apiLogClientUpload s i u
  | .apiLogUpload u => apiLogUpload s i u
  | .apiClientConnStatsUpload auth nodeID payload => apiClientConnStatsUpload s i auth nodeID payload
  | .apiLogClientUploadPrefSet auth nodeID enabled => apiLogClientUploadPrefSet s i auth nodeID enabled
  | .setGlobalLogUploadEnabled enabled => setGlobalLogUploadEnabled s i enabled
  | .setUserLogUploadAdminDisabled username disabled => setUserLogUploadAdminDisabled s i username disabled
  | .createUser username => (createUser s username,answer .ok)
  | .archiveOldConnStats => (archiveOldConnStats s i,answer .ok)
  | .write => write s

def Arbiter.wait (after : Nat) : Arbiter := { s with clock := s.clock + after }

def step : Arbiter × Shown := act (s.wait i.after) i

def start : Arbiter := ⟨0,∅,∅,[],[]⟩

def OptedOut : Prop :=
  ∃ p, s.users.lookup username = some p ∧ (p.logUploadEnabled = false ∨ p.logUploadAdminDisabled = true)

def Latest (r : Sample) : Prop :=
  r ∈ s.connStats ∧ r.deviceID = deviceID ∧ ∀ r' ∈ s.connStats, r'.deviceID = deviceID → r'.ts ≤ r.ts

/-- As far as they can be read, the switch for everyone is not off, and a device with
    samples has a latest one whose user has not opted out. -/
structure Permitted (s : Arbiter) (i : Input) (deviceID : String) : Prop where
  global : i.fails .getSetting = false → s.settings.lookup logUploadGlobalSetting ≠ some "0"
  user : i.fails .usernameForDeviceID = false → i.fails .userLogUploadPrefs = false →
    (∃ r ∈ s.connStats, r.deviceID = deviceID) → ∃ r, Latest s deviceID r ∧ ¬ OptedOut s r.username

variable {s} {deviceID}

theorem mem_latest {r : Sample} : r ∈ s.latest deviceID ↔ Latest s deviceID r := by
  grind [Arbiter.latest,Latest]

theorem latest_pos (known : ∃ r ∈ s.connStats, r.deviceID = deviceID) :
    0 < (s.latest deviceID).length := by
  obtain ⟨r,member,same⟩ := known
  have listed : r ∈ s.connStats.filter (fun r => r.deviceID = deviceID) := by simp [member,same]
  cases last : (s.connStats.filter (fun r => r.deviceID = deviceID)).argmax Sample.ts with
  | none =>
    rw [argmax_eq_none.mp last] at listed
    cases listed
  | some r' =>
    have there := mem_filter.mp (argmax_mem last)
    have greatest : ∀ r'' ∈ s.connStats, r''.deviceID = deviceID → r''.ts ≤ r'.ts := by
      intro r'' member own
      exact le_of_mem_argmax (mem_filter.mpr ⟨member,by simp [own]⟩) last
    exact length_pos_of_mem (mem_latest.mpr ⟨there.1,by simpa using there.2,greatest⟩)

variable {i}

theorem usernameForDeviceID_latest (named : deviceID ≠ "")
    (read : i.fails .usernameForDeviceID = false) (known : ∃ r ∈ s.connStats, r.deviceID = deviceID) :
    ∃ r, Latest s deviceID r ∧ usernameForDeviceID s i deviceID = r.username := by
  have below := Nat.mod_lt i.ties (latest_pos known)
  refine ⟨_,mem_latest.mp (getElem_mem below),?_⟩
  simp [usernameForDeviceID,named,read,getElem?_eq_getElem below]

theorem globalLogUploadEnabled_read (enabled : globalLogUploadEnabled s i = true)
    (read : i.fails .getSetting = false) : s.settings.lookup logUploadGlobalSetting ≠ some "0" := by
  intro off
  simp [globalLogUploadEnabled,read,off] at enabled

theorem logUploadAllowed_user {username : String}
    (allowed : logUploadAllowed s i username = true) (named : username ≠ "")
    (read : i.fails .userLogUploadPrefs = false) : ¬ OptedOut s username := by
  rintro ⟨p,row,out⟩
  grind [logUploadAllowed,userLogUploadPrefs]

theorem logUploadAllowed_global {username : String}
    (allowed : logUploadAllowed s i username = true) : globalLogUploadEnabled s i = true := by
  grind [logUploadAllowed]

def Named (s : Arbiter) : Prop := ∀ r ∈ s.connStats, r.username ≠ ""

theorem permitted_of_allowed (names : Named s) (device : deviceID ≠ "")
    (allowed : logUploadAllowed s i (usernameForDeviceID s i deviceID) = true) : Permitted s i deviceID where
  global read := globalLogUploadEnabled_read (logUploadAllowed_global allowed) read
  user mapped prefs known := by
    obtain ⟨r,latest,is⟩ := usernameForDeviceID_latest device mapped known
    rw [is] at allowed
    exact ⟨r,latest,logUploadAllowed_user allowed (names r latest.1) prefs⟩

inductive Moves (s : Arbiter) (i : Input) (s' : Arbiter) (o : Shown) : Prop
  | nothing (same : s'.workCh = s.workCh) (took : o.took = none) (wrote : o.wrote = none)
  | takes (e : Endpoint) (w : LogWork) (queued : s'.workCh = s.workCh ++ [w]) (took : o.took = some (e,w))
      (wrote : o.wrote = none)
      (asked : e = .client → w.nodeID ≠ "" ∧ logUploadAllowed s i (usernameForDeviceID s i w.nodeID) = true)
  | writes (w : LogWork) (first : s.workCh = w :: s'.workCh) (took : o.took = none) (wrote : o.wrote = some w)

structure Does (s : Arbiter) (i : Input) (done : Arbiter × Shown) : Prop where
  logs : Moves s i done.1 done.2
  samples : ∀ r ∈ done.1.connStats, r ∈ s.connStats ∨ r.username ≠ ""

theorem Does.idle {done : Arbiter × Shown} (workCh : done.1.workCh = s.workCh)
    (connStats : done.1.connStats = s.connStats) (took : done.2.took = none) (wrote : done.2.wrote = none) :
    Does s i done :=
  ⟨.nothing workCh took wrote,fun _ member => .inl (connStats ▸ member)⟩

theorem does_answer (s : Arbiter) (i : Input) (r : Response) : Does s i (s,answer r) := .idle rfl rfl rfl rfl

theorem does_store (e : Endpoint) (w : LogWork)
    (asked : e = .client → w.nodeID ≠ "" ∧ logUploadAllowed s i (usernameForDeviceID s i w.nodeID) = true) :
    Does s i (store s e w) := by
  unfold store
  split_ifs
  · exact does_answer s i _
  · exact ⟨.takes e w rfl rfl rfl asked,fun _ member => .inl member⟩
  · exact does_answer s i _

theorem does_apiLogClientUpload (s : Arbiter) (i : Input) (u : Upload) : Does s i (apiLogClientUpload s i u) := by
  unfold apiLogClientUpload
  dsimp only
  split_ifs with _ unnamed _ refused
  · exact does_answer s i _
  · exact does_answer s i _
  · exact does_answer s i _
  · exact does_answer s i _
  · grind [does_store,Upload.work]

theorem does_apiLogUpload (s : Arbiter) (i : Input) (u : Upload) : Does s i (apiLogUpload s i u) := by
  unfold apiLogUpload
  cases u.auth with
  | missing => exact does_answer s i _
  | wrong => exact does_answer s i _
  | right =>
    split_ifs
    · exact does_answer s i _
    · exact does_answer s i _
    · exact does_store .node _ nofun

theorem does_apiClientConnStatsUpload (s : Arbiter) (i : Input) (auth : Auth) (nodeID : String)
    (payload : Option Payload) : Does s i (apiClientConnStatsUpload s i auth nodeID payload) := by
  cases payload with
  | none =>
    simp only [apiClientConnStatsUpload]
    split_ifs <;> exact does_answer s i _
  | some p =>
    simp only [apiClientConnStatsUpload]
    split_ifs with _ _ unnamed
    · exact does_answer s i _
    · exact does_answer s i _
    · exact does_answer s i _
    · exact does_answer s i _
    all_goals
      refine ⟨.nothing rfl rfl rfl,?_⟩
      grind

theorem does_updateUser (s : Arbiter) (i : Input) (username : String) (f : Prefs → Prefs) :
    Does s i (s.updateUser username f,answer .ok) := by
  unfold Arbiter.updateUser
  cases s.users.lookup username <;> exact .idle rfl rfl rfl rfl

theorem does_apiLogClientUploadPrefSet (s : Arbiter) (i : Input) (auth : Auth) (nodeID : String)
    (enabled : Option Bool) : Does s i (apiLogClientUploadPrefSet s i auth nodeID enabled) := by
  cases enabled with
  | none =>
    simp only [apiLogClientUploadPrefSet]
    split_ifs <;> exact does_answer s i _
  | some enabled =>
    simp only [apiLogClientUploadPrefSet]
    split_ifs
    · exact does_answer s i _
    · exact does_answer s i _
    · exact does_answer s i _
    · exact does_answer s i _
    · exact does_updateUser s i _ _

theorem does_archiveOldConnStats (s : Arbiter) (i : Input) : Does s i (archiveOldConnStats s i,answer .ok) := by
  unfold archiveOldConnStats
  split_ifs
  · exact does_answer s i _
  · exact ⟨.nothing rfl rfl rfl,fun _ member => .inl (mem_of_mem_filter member)⟩

theorem does_write (s : Arbiter) (i : Input) : Does s i (write s) := by
  cases waiting : s.workCh with
  | nil =>
    simp only [write,waiting]
    exact does_answer s i _
  | cons w rest =>
    simp only [write,waiting]
    exact ⟨.writes w waiting rfl rfl,fun _ member => .inl member⟩

theorem does_act (s : Arbiter) (i : Input) : Does s i (act s i) := by
  unfold act
  cases i.event with
  | apiLogClientUpload u => exact does_apiLogClientUpload s i u
  | apiLogUpload u => exact does_apiLogUpload s i u
  | apiClientConnStatsUpload auth nodeID payload => exact does_apiClientConnStatsUpload s i auth nodeID payload
  | apiLogClientUploadPrefSet auth nodeID enabled => exact does_apiLogClientUploadPrefSet s i auth nodeID enabled
  | setGlobalLogUploadEnabled enabled =>
    simp only [setGlobalLogUploadEnabled]
    split_ifs <;> exact .idle rfl rfl rfl rfl
  | setUserLogUploadAdminDisabled username disabled =>
    simp only [setUserLogUploadAdminDisabled]
    split_ifs
    · exact does_answer s i _
    · exact does_updateUser s i _ _
  | createUser username =>
    simp only [createUser]
    cases s.users.lookup username <;> exact .idle rfl rfl rfl rfl
  | archiveOldConnStats => exact does_archiveOldConnStats s i
  | write => exact does_write s i

theorem does_step (s : Arbiter) (i : Input) : Does (s.wait i.after) i (step s i) := does_act (s.wait i.after) i

structure Sound (past : List Shown) (s : Arbiter) : Prop where
  named : Named s
  taken : ∀ w ∈ s.workCh, ∃ o ∈ past, ∃ e, o.took = some (e,w)

theorem step_sound : Kept step Sound := by
  intro past s i sound
  obtain ⟨logs,samples⟩ := does_step s i
  have earlier : ∀ w ∈ s.workCh, ∃ o ∈ past ++ [(step s i).2], ∃ e, o.took = some (e,w) := by
    grind [sound.taken]
  constructor
  · intro r member
    rcases samples r member with old | new
    · exact sound.named r old
    · exact new
  · intro w member
    cases logs with
    | nothing same _ _ =>
      rw [same] at member
      exact earlier w member
    | takes e w' queued took _ _ =>
      rw [queued] at member
      rcases mem_append.mp member with old | new
      · exact earlier w old
      grind
    | writes w' first _ _ => exact earlier w (by simp [show s.workCh = w' :: (step s i).1.workCh from first,member])

theorem run_sound (first : List Input) : Sound (trace step start first) (final step start first) := by
  have sound : Sound [] start := ⟨nofun,nofun⟩
  simpa using invariant_run step_sound first [] start sound

theorem client_logs_permitted (first : List Input) (i : Input) :
    (∀ w, (step (final step start first) i).2.took = some (.client,w) →
      Permitted ((final step start first).wait i.after) i w.nodeID) ∧
    ∀ w, (step (final step start first) i).2.wrote = some w → ∃ o ∈ trace step start first, ∃ e, o.took = some (e,w) := by
  have sound := run_sound first
  have logs := (does_step (final step start first) i).logs
  constructor
  · intro w taken
    cases logs with
    | nothing _ took _ => cases took.symm.trans taken
    | writes _ _ took _ => cases took.symm.trans taken
    | takes e w' _ took _ asked =>
      cases took.symm.trans taken
      obtain ⟨device,allowed⟩ := asked rfl
      exact permitted_of_allowed sound.named device allowed
  · intro w written
    cases logs with
    | nothing _ _ wrote => cases wrote.symm.trans written
    | takes _ _ _ _ wrote _ => cases wrote.symm.trans written
    | writes w' waiting _ wrote =>
      cases wrote.symm.trans written
      exact sound.taken w (by rw [show (final step start first).workCh = w :: _ from waiting]; exact mem_cons_self)

def quietly (after : Nat) (event : Event) : Input := ⟨after,fun _ => false,0,event⟩

def known : List Input :=
  [quietly 0 (.createUser "user"),quietly 0 (.apiClientConnStatsUpload .right "device" (some ⟨"user",0⟩))]

def deviceLog : Upload := ⟨.right,"device","android",[0x1f,0x8b]⟩

theorem client_logs_permitted_known :
    let i := quietly 60 (.apiLogClientUpload deviceLog)
    (step (final step start known) i).2.took = some (.client,⟨"android","device","user",[0x1f,0x8b]⟩) ∧
      Permitted ((final step start known).wait i.after) i "device" := by
  intro i
  have took : (step (final step start known) i).2.took = some (.client,⟨"android","device","user",[0x1f,0x8b]⟩) := by
    decide
  exact ⟨took,(client_logs_permitted known i).1 _ took⟩

def lastReported (past : List Shown) (deviceID : String) : Option String :=
  ((past.filterMap Shown.reported).reverse.find? (fun r => r.1 = deviceID)).map (fun r => r.2)

def LogWork.endUser (w : LogWork) : Bool := w.nodeType ∉ ["control","exit","arbiter"]

/-- A node forwards the log of a device while the switch for everyone is off; and a user
    opts out, and a month later, when the sample of the device is gone, its log is taken. -/
theorem opted_out_log_taken :
    (¬ ∀ (first : List Input) (i : Input) (e : Endpoint) (w : LogWork),
      (step (final step start first) i).2.took = some (e,w) → w.endUser = true →
        (final step start first).settings.lookup logUploadGlobalSetting ≠ some "0") ∧
    ¬ ∀ (first : List Input) (i : Input) (w : LogWork) (username : String),
      (step (final step start first) i).2.took = some (.client,w) → w.endUser = true →
        lastReported (trace step start first) w.nodeID = some username →
        ¬ OptedOut (final step start first) username := by
  constructor
  · intro holds
    exact absurd rfl (holds [quietly 0 (.setGlobalLogUploadEnabled false)] (quietly 0 (.apiLogUpload deviceLog)) .node
      ⟨"android","device","",[0x1f,0x8b]⟩ (by decide) (by decide))
  · intro holds
    exact holds
      (known ++ [quietly 0 (.apiLogClientUploadPrefSet .right "device" (some false)),
        quietly (31 * 24 * 3600) .archiveOldConnStats])
      (quietly 0 (.apiLogClientUpload deviceLog)) ⟨"android","device","",[0x1f,0x8b]⟩ "user" (by decide) (by decide)
      (by decide) ⟨⟨false,false⟩,by decide,.inl rfl⟩

end TunnelCat.LogUpload
