import TunnelCat.Sessions

/-!
Logins that name a key (`snc-arbiter/sessions.go`, `db_keys.go`). Such a login asks
whether the account and the key are enabled, binds the key to its first device and
writes when it was seen. It never asks whose key it is, and where a read fails it
goes on without the answer.
-/
namespace TunnelCat.KeyLogin
open Sessions

/-- The tables with the column `username` of `keys`, which the statements of a login
    neither read for a check nor write. -/
structure Arbiter where
  manager : Manager
  owner : String → String

section
variable (A : Sealing String String.utf8ByteSize) (D : Draws)

def Arbiter.login (a : Arbiter) (i : Input) (username password : String) (opts : Option LoginOpts)
    (reply : Option String) : Arbiter × Seen :=
  let done := Sessions.login A D a.manager i username password opts reply
  ({ a with manager := done.1 },done.2)

variable {A D}

/-- What a login may write into the row of its key: the device of a key that has none
    and is not for any number of them, and the time. -/
structure Used (o : LoginOpts) (key key' : Key) : Prop where
  enabled : key'.enabled = key.enabled
  unlimited : key'.unlimitedDevices = key.unlimitedDevices
  device : key'.deviceID = key.deviceID ∧ key'.deviceName = key.deviceName ∨
    key.deviceID = none ∧ key.unlimitedDevices = false ∧ key'.deviceID = some o.deviceID ∧ key'.deviceName = o.deviceName

theorem Used.refl (o : LoginOpts) (key : Key) : Used o key key := ⟨rfl,rfl,.inl ⟨rfl,rfl⟩⟩

theorem useKey_used (i : Input) (now : Int) (o : LoginOpts) (key : Key) : Used o key (useKey i now o key) := by
  by_cases binds : !key.unlimitedDevices && key.deviceID = none && o.deviceID ≠ "" && !i.fails .upsertKeyDevice
  · have first : key.deviceID = none ∧ key.unlimitedDevices = false := by
      grind
    simp only [useKey]
    split_ifs <;> exact ⟨rfl,rfl,.inr ⟨first.1,first.2,rfl,rfl⟩⟩
  · simp only [useKey]
    split_ifs <;> exact ⟨rfl,rfl,.inl ⟨rfl,rfl⟩⟩

structure Checks (m : Manager) (i : Input) (username : String) (o : LoginOpts) (key : Key) (m' : Manager)
    (e : Option LoginError) : Prop where
  enabled : e = none → i.fails .getKey = false → key.enabled = true
  account : e = none → i.fails .isUserEnabled = false → m.isUserEnabled username = true
  others : ∀ id, id ≠ o.keyID → m'.keys.lookup id = m.keys.lookup id
  named : ∃ key', m'.keys.lookup o.keyID = some key' ∧ Used o key key'

variable {i : Input} {o : LoginOpts} {key : Key}

variable (username : String)

theorem bindDevice_checks {m : Manager}
    (named : o.keyID ≠ "") (record : m.keys.lookup o.keyID = some key) :
    Checks m i username o key (bindDevice m i username (some o)).1 (bindDevice m i username (some o)).2 := by
  have unchanged : ∃ key', m.keys.lookup o.keyID = some key' ∧ Used o key key' := ⟨key,record,Used.refl o key⟩
  simp only [bindDevice,if_neg named]
  by_cases disabled : !i.fails .isUserEnabled && !m.isUserEnabled username
  · rw [if_pos disabled]
    exact ⟨nofun,nofun,fun _ _ => rfl,unchanged⟩
  rw [if_neg disabled]
  have account : i.fails .isUserEnabled = false → m.isUserEnabled username = true := by
    simpa [read] using disabled
  cases failed : i.fails .getKey with
  | true =>
    simp only [Manager.getKey,failed]
    exact ⟨fun _ read => (Bool.noConfusion (failed.symm.trans read)),fun _ => account,fun _ _ => rfl,unchanged⟩
  | false =>
    simp only [Manager.getKey,failed,Bool.false_eq_true,if_false,record]
    cases enabled : key.enabled with
    | false =>
      exact ⟨nofun,nofun,fun _ _ => rfl,unchanged⟩
    | true =>
      simp only [Bool.not_true,Bool.false_eq_true,if_false]
      refine ⟨fun _ _ => enabled,fun _ => account,?_,useKey i m.clock o key,?_,useKey_used i m.clock o key⟩
      · intro id other
        rw [Table.lookup_insert_of,if_neg other]
      · rw [Table.lookup_insert_of,if_pos rfl]

theorem newSession_keys (m : Manager) (i : Input) (username : String) (password : Option String)
    (deviceID deviceName camSession : String) (stamp : Stamp) :
    (newSession A D m i username password deviceID deviceName camSession stamp).1.keys = m.keys := by
  unfold newSession
  split_ifs <;> rfl

theorem finishLogin_checks {m : Manager}
    (named : o.keyID ≠ "") (record : m.keys.lookup o.keyID = some key) (password : Option String) (camSession : String)
    (stamp : Stamp) : ∃ e,
      Checks m i username o key (finishLogin A D m i username password (some o) camSession stamp).1 e ∧
        ∀ token, (finishLogin A D m i username password (some o) camSession stamp).2 = .ok token → e = none := by
  have checks := bindDevice_checks (i := i) username named record
  unfold finishLogin
  cases result : bindDevice m i username (some o) with
  | mk m' e =>
    rw [result] at checks
    refine ⟨e,?_⟩
    cases e with
    | some e => exact ⟨checks,nofun⟩
    | none =>
      refine ⟨⟨checks.enabled,checks.account,?_,?_⟩,fun _ _ => rfl⟩
      · grind [newSession_keys,checks.others]
      · rw [newSession_keys]
        exact checks.named

/-- What an arbiter may do at a password login with the id of a key that has a row: give
    a session only if the key is enabled or could not be read, and the account is enabled
    or could not be read; write no other key, and into this one only the binding of a key
    that has none and the time. -/
structure Checked (a : Arbiter) (i : Input) (username : String) (o : LoginOpts) (key : Key) (done : Arbiter × Seen) :
    Prop where
  enabled : ∀ token, done.2.outcome = .token token → i.fails .getKey = true ∨ key.enabled = true
  account : ∀ token, done.2.outcome = .token token →
    i.fails .isUserEnabled = true ∨ a.manager.isUserEnabled username = true
  owners : done.1.owner = a.owner
  others : ∀ id, id ≠ o.keyID → done.1.manager.keys.lookup id = a.manager.keys.lookup id
  named : ∃ key', done.1.manager.keys.lookup o.keyID = some key' ∧ Used o key key'

theorem checked_finish {a : Arbiter} {username : String} (named : o.keyID ≠ "")
    (record : a.manager.keys.lookup o.keyID = some key) (password : Option String) (camSession : String) (stamp : Stamp)
    (accepted : Option Acceptance) :
    Checked a i username o key
      ({ a with manager := (finishLogin A D a.manager i username password (some o) camSession stamp).1 },
        a.manager.shows accepted
          (outcomeOf (finishLogin A D a.manager i username password (some o) camSession stamp).2)) := by
  obtain ⟨e,checks,passed⟩ := finishLogin_checks (A := A) (D := D) (i := i) username named record password camSession stamp
  have through : ∀ token,
      outcomeOf (finishLogin A D a.manager i username password (some o) camSession stamp).2 = .token token → e = none := by
    intro token shown
    cases result : (finishLogin A D a.manager i username password (some o) camSession stamp).2 with
    | error e => simp [result,outcomeOf] at shown
    | ok t => exact passed t result
  refine ⟨?_,?_,rfl,checks.others,checks.named⟩
  · intro token shown
    cases failed : i.fails .getKey with
    | true => exact .inl rfl
    | false => exact .inr (checks.enabled (through token shown) failed)
  · intro token shown
    cases failed : i.fails .isUserEnabled with
    | true => exact .inl rfl
    | false => exact .inr (checks.account (through token shown) failed)

/-- Every password login that names a key with a row is checked this far, whatever
    Camerlengo replies and whichever calls fail. -/
theorem login_checked (a : Arbiter) (i : Input) (username password : String) (o : LoginOpts) (reply : Option String)
    (key : Key) (named : o.keyID ≠ "") (record : a.manager.keys.lookup o.keyID = some key) :
    Checked a i username o key (a.login A D i username password (some o) reply) := by
  unfold Arbiter.login login
  cases authLogin reply with
  | some camSession => exact checked_finish named record _ camSession _ _
  | none =>
    cases fallbackRow A a.manager i username password with
    | none => exact ⟨nofun,nofun,rfl,fun _ _ => rfl,key,record,Used.refl o key⟩
    | some recent => exact checked_finish named record _ recent.camSession _ _

end

def sampleArbiter (enabled : Bool) : Arbiter where
  manager := { start with keys := AList.insert "kid" ⟨enabled,false,none,"",0⟩ ∅ }
  owner _ := "owner"

def sampleOpts : LoginOpts := ⟨"kid","device","Android"⟩

def loginInput (failing : Option Call) : Input :=
  { quietly 0 .restart with fails := fun c => decide (failing = some c) }

theorem login_checked_first :
    let done := (sampleArbiter true).login sampleSealing Draws.unary (loginInput none) "owner" "password" (some sampleOpts)
      (some "session")
    done.2.outcome = .token sampleToken ∧
      Checked (sampleArbiter true) (loginInput none) "owner" sampleOpts ⟨true,false,none,"",0⟩ done :=
  ⟨rfl,login_checked (sampleArbiter true) (loginInput none) "owner" "password" sampleOpts (some "session")
    ⟨true,false,none,"",0⟩ (by decide) rfl⟩

/-- A login gives sessions for the user's own enabled keys only, and leaves the keys of
    others alone. -/
structure OwnKeyOnly (a : Arbiter) (username : String) (o : LoginOpts) (key : Key) (done : Arbiter × Seen) : Prop where
  session : ∀ token, done.2.outcome = .token token →
    a.owner o.keyID = username ∧ key.enabled = true ∧ a.manager.isUserEnabled username = true
  others : ∀ id, a.owner id ≠ username → done.1.manager.keys.lookup id = a.manager.keys.lookup id

/-- Someone else logs in with the key and takes its binding, though no call fails; and its
    owner logs in with it after it was disabled, when it cannot be read. -/
theorem key_of_another_bound :
    (¬ ∀ (A : Sealing String String.utf8ByteSize) (D : Draws) (a : Arbiter) (username password : String) (o : LoginOpts)
      (reply : Option String) (key : Key), o.keyID ≠ "" → a.manager.keys.lookup o.keyID = some key →
        OwnKeyOnly a username o key (a.login A D (loginInput none) username password (some o) reply)) ∧
    ¬ ∀ (A : Sealing String String.utf8ByteSize) (D : Draws) (a : Arbiter) (failing : Option Call)
      (username password : String) (o : LoginOpts) (reply : Option String) (key : Key), o.keyID ≠ "" →
        a.manager.keys.lookup o.keyID = some key → a.owner o.keyID = username →
        OwnKeyOnly a username o key (a.login A D (loginInput failing) username password (some o) reply) := by
  constructor
  · intro holds
    have own := holds sampleSealing Draws.unary (sampleArbiter true) "other" "password" sampleOpts (some "session") _
      (by decide) rfl
    have bound := own.others "kid" (by decide)
    exact absurd (congrArg (Option.bind · Key.deviceID) bound) (by decide)
  · intro holds
    have own := holds sampleSealing Draws.unary (sampleArbiter false) (some .getKey) "owner" "password" sampleOpts
      (some "session") _ (by decide) rfl rfl
    exact absurd (own.session sampleToken rfl).2.1 (by decide)

end TunnelCat.KeyLogin
