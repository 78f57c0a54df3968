import OxiMqtt.Acl

/-!
# Who an access rule is for

What the user configuration of a rule says (`Meant`), against what `users_try_from` makes of it and
`Rule::hit` decides.  A constraint is configured by its key; one whose value is of another type is
met by no client.

The parser drops what is of another type, and a rule without constraints hits everybody.  It keeps
eight bits of a protocol level.  `Rule::hit` returns the superuser flag of the last constraint, and
only the user name has one.

The addresses that clients may come from are a parameter, as the texts of `IpAddr`: a rule for any
other text is for nobody, whatever else it says.

* `hitAll_fst_iff`, `hitAll_snd_iff`: the two results of `Rule::hit`, as the constraints are.
* `usersOf_hit_iff`, `usersOf_last_iff`: the constraints of a configuration.
* `users_mean_what_they_say_iff`: the configurations that mean what they say.
* `dropped_constraints`: four that do not.
-/

namespace OxiMqtt.Acl

abbrev Fields : Type := List (String × Value)

/-! ## What a configuration says -/

/-- The user name, and the password where an allow rule gives one. -/
def NameMeant (map : Fields) (access : Access) (session : Session) (user : Value) : Prop :=
  ∃ name, user = .string name ∧ session.id.username = some name ∧
    (access = .allow → ∀ p, map.lookup "password" = some (.string p) →
      session.password = some p.toUTF8.toList)

def ClientidMeant (session : Session) (clientid : Value) : Prop :=
  clientid = .string session.id.clientId

def IpaddrMeant (session : Session) (ipaddr : Value) : Prop :=
  ∃ addr, ipaddr = .string addr ∧ session.id.remoteAddr = some addr

def ProtocolMeant (session : Session) (protocol : Value) : Prop :=
  ∃ n, protocol = .number (.posInt n) ∧ ∃ level, session.protocol = some level ∧ level.toNat = n

/-- The configuration has a constraint. -/
def Configured (map : Fields) : Prop :=
  ∃ key ∈ ["user", "clientid", "ipaddr", "protocol"], (map.lookup key).isSome

/-- The client meets every constraint, of which there is one. -/
structure ObjectMeant (map : Fields) (access : Access) (session : Session) : Prop where
  configured : Configured map
  user : ∀ v ∈ map.lookup "user", NameMeant map access session v
  clientid : ∀ v ∈ map.lookup "clientid", ClientidMeant session v
  ipaddr : ∀ v ∈ map.lookup "ipaddr", IpaddrMeant session v
  protocol : ∀ v ∈ map.lookup "protocol", ProtocolMeant session v

/-- The client is one that the configuration is for. -/
def Meant (access : Access) (session : Session) : Value → Prop
  | .string all => toLowercase all = "all"
  | .object map => ObjectMeant map access session
  | _ => False

/-- The user of an allow rule is marked as a superuser. -/
def Marked (access : Access) (cfg : Value) : Prop :=
  access = .allow ∧ ∃ map name, cfg = .object map ∧ map.lookup "user" = some (.string name) ∧
    map.lookup "superuser" = some (.bool true)

/-- `Rule::hit`, for a client. -/
def Rule.hits (rule : Rule) (session : Session) : Bool × Superuser :=
  rule.hit session.id session.password session.protocol (rule.access == .allow)

/-- The client comes from one of the addresses. -/
def ComesFrom (ipTexts : Set String) (session : Session) : Prop :=
  ∀ addr ∈ session.id.remoteAddr, addr ∈ ipTexts

/-- The rule hits the clients that the configuration is for, as superusers where it says so. -/
structure MeansWhatItSays (ipTexts : Set String) (cfg : Value) (rule : Rule) : Prop where
  hit : ∀ session, ComesFrom ipTexts session →
    ((rule.hits session).1 = true ↔ Meant rule.access session cfg)
  superuser : ∀ session, ComesFrom ipTexts session →
    ((rule.hits session).2 = true ↔ Meant rule.access session cfg ∧ Marked rule.access cfg)

/-- There is a constraint, each is of its type, with a protocol level of eight bits, and one for a
superuser is for its name alone. -/
structure WellWritten (map : Fields) (access : Access) : Prop where
  configured : Configured map
  user : ∀ v ∈ map.lookup "user", ∃ name, v = .string name
  clientid : ∀ v ∈ map.lookup "clientid", ∃ clientid, v = .string clientid
  ipaddr : ∀ v ∈ map.lookup "ipaddr", ∃ addr, v = .string addr
  protocol : ∀ v ∈ map.lookup "protocol", ∃ n, v = .number (.posInt n) ∧ n < 256
  superuser : Marked access (.object map) →
    map.lookup "clientid" = none ∧ map.lookup "ipaddr" = none ∧ map.lookup "protocol" = none

/-- The configuration asks for an address that no client comes from. -/
def ForNobody (ipTexts : Set String) (map : Fields) : Prop :=
  ∃ addr, map.lookup "ipaddr" = some (.string addr) ∧ addr ∉ ipTexts

/-! ## The loop of `Rule::hit` -/

section

variable {id : Id} {password : Option Password} {protocol : Option UInt8} {allow : Bool}

theorem hitAll_fst_iff {users : List User} {flag : Superuser} :
    (hitAll id password protocol allow users flag).1 = true ↔
      ∀ user ∈ users, (user.hit id password protocol allow).1 = true := by
  induction users generalizing flag with
  | nil => simp [hitAll]
  | cons user users ih =>
      rw [hitAll, List.forall_mem_cons]
      rcases user.hit id password protocol allow with ⟨_ | _, superuser⟩
      · simp
      · rw [ih]
        simp

/-- The flag is that of the last constraint, where all are met. -/
theorem hitAll_snd_iff {users : List User} {flag : Superuser} :
    (hitAll id password protocol allow users flag).2 = true ↔
      (∀ user ∈ users, (user.hit id password protocol allow).1 = true) ∧
        (users.getLast?.map fun user => (user.hit id password protocol allow).2).getD flag =
          true := by
  induction users generalizing flag with
  | nil => simp [hitAll]
  | cons user users ih =>
      rw [hitAll, List.forall_mem_cons, List.getLast?_cons]
      rcases hit : user.hit id password protocol allow with ⟨_ | _, superuser⟩
      · simp
      · rw [ih]
        cases users.getLast? <;> simp [hit]

end

/-! ## The constraints of a configuration -/

section

variable (map : Fields) (access : Access)

def nameOf : Option UserName := (map.lookup "user").bind Value.asStr

def clientidOf : Option ClientId := (map.lookup "clientid").bind Value.asStr

def ipaddrOf : Option String := (map.lookup "ipaddr").bind Value.asStr

def protocolOf : Option Nat := (map.lookup "protocol").bind Value.asU64

def passwordOf : Option Password :=
  match access, map.lookup "password" with
  | .allow, some (.string p) => some p.toUTF8.toList
  | _, _ => none

def superuserOf : Superuser :=
  match access with
  | .allow => ((map.lookup "superuser").bind Value.asBool).getD false
  | .deny => false

/-- What `users_try_from` makes of an object that it accepts. -/
def usersOf : List User :=
  (nameOf map).toList.map (fun name =>
      User.username name (passwordOf map access) (superuserOf map access)) ++
    (clientidOf map).toList.map User.clientid ++ (ipaddrOf map).toList.map User.ipaddr ++
    (protocolOf map).toList.map fun n => User.protocol (UInt8.ofNat n)

end

theorem asStr_eq_some_iff {v : Value} {s : String} : v.asStr = some s ↔ v = .string s := by
  cases v <;> simp [Value.asStr]

theorem asU64_eq_some_iff {v : Value} {n : Nat} : v.asU64 = some n ↔ v = .number (.posInt n) := by
  rcases v with _ | _ | ⟨_ | _ | _⟩ | _ | _ | _ <;> simp [Value.asU64]

theorem nameOf_eq_some_iff {map : Fields} {name : UserName} :
    nameOf map = some name ↔ map.lookup "user" = some (.string name) := by
  simp only [nameOf, Option.bind_eq_some_iff, asStr_eq_some_iff, exists_eq_right]

theorem clientidOf_eq_some_iff {map : Fields} {clientid : ClientId} :
    clientidOf map = some clientid ↔ map.lookup "clientid" = some (.string clientid) := by
  simp only [clientidOf, Option.bind_eq_some_iff, asStr_eq_some_iff, exists_eq_right]

theorem ipaddrOf_eq_some_iff {map : Fields} {addr : String} :
    ipaddrOf map = some addr ↔ map.lookup "ipaddr" = some (.string addr) := by
  simp only [ipaddrOf, Option.bind_eq_some_iff, asStr_eq_some_iff, exists_eq_right]

theorem protocolOf_eq_some_iff {map : Fields} {n : Nat} :
    protocolOf map = some n ↔ map.lookup "protocol" = some (.number (.posInt n)) := by
  simp only [protocolOf, Option.bind_eq_some_iff, asU64_eq_some_iff, exists_eq_right]

theorem passwordOf_eq_some_iff {map : Fields} {access : Access} {p : Password} :
    passwordOf map access = some p ↔
      access = .allow ∧ ∃ s, map.lookup "password" = some (.string s) ∧ s.toUTF8.toList = p := by
  cases access with
  | deny => simp [passwordOf]
  | allow =>
      unfold passwordOf
      cases map.lookup "password" with
      | none => simp
      | some v => cases v <;> simp

theorem superuserOf_iff {map : Fields} {access : Access} :
    superuserOf map access = true ↔
      access = .allow ∧ map.lookup "superuser" = some (.bool true) := by
  cases access with
  | deny => simp [superuserOf]
  | allow =>
      unfold superuserOf
      cases map.lookup "superuser" with
      | none => simp
      | some v => cases v <;> simp [Value.asBool]

theorem users_of_object {map : Fields} {access : Access} {users : List User}
    (accepted : usersTryFrom (.object map) access = .ok users) : users = usersOf map access := by
  unfold usersOf nameOf
  cases name : (map.lookup "user").bind Value.asStr with
  | none =>
      simp only [usersTryFrom, name] at accepted
      cases accepted
      rfl
  | some name' =>
      simp only [usersTryFrom, name] at accepted
      unfold usernameTryFrom at accepted
      cases access with
      | deny =>
          cases accepted
          rfl
      | allow =>
          unfold passwordOf superuserOf
          cases password : map.lookup "password" with
          | none =>
              simp only [password] at accepted
              cases accepted
              rfl
          | some v =>
              simp only [password] at accepted
              cases v <;> cases accepted
              rfl

section

variable {map : Fields} {access : Access} {session : Session}

/-- The constraint of the name that an accepted configuration leads to. -/
theorem username_hit_iff (name : UserName) :
    ((User.username name (passwordOf map access) (superuserOf map access)).hit session.id
        session.password session.protocol (access == .allow)).1 = true ↔
      session.id.username = some name ∧
        ∀ p ∈ passwordOf map access, session.password = some p := by
  rcases session with ⟨⟨clientId, username, remoteAddr⟩, password, protocol⟩
  have own : (Access.allow == Access.allow) = true := rfl
  have other : (Access.deny == Access.allow) = false := rfl
  cases access with
  | deny =>
      -- a deny rule has no password
      have without : passwordOf map .deny = none := rfl
      rw [without, other]
      cases username with
      | none => simp [User.hit]
      | some name' => simpa [User.hit] using eq_comm
  | allow =>
      rw [own]
      cases username with
      | none => simp [User.hit]
      | some name' =>
          cases passwordOf map .allow with
          | none => simpa [User.hit] using eq_comm
          | some p =>
              cases password with
              | none => simp [User.hit]
              | some p' =>
                  simp only [User.hit, Bool.and_eq_true, beq_iff_eq, Option.some.injEq,
                    Option.mem_some_iff, forall_eq']
                  exact and_congr eq_comm eq_comm

/-- The flag of the name, for a client that meets it. -/
theorem username_hit_snd {name : UserName} (named : session.id.username = some name)
    (known : ∀ p ∈ passwordOf map access, session.password = some p) :
    ((User.username name (passwordOf map access) (superuserOf map access)).hit session.id
        session.password session.protocol (access == .allow)).2 = superuserOf map access := by
  unfold User.hit
  rw [named]
  cases access with
  | deny => cases session.password <;> rfl
  | allow =>
      cases given : passwordOf map .allow with
      | none => cases session.password <;> rfl
      | some p =>
          rw [known p given]
          rfl

/-- The client meets the constraints that are left of a configuration. -/
structure LeftMet (map : Fields) (access : Access) (session : Session) : Prop where
  name : ∀ name ∈ nameOf map, session.id.username = some name ∧
    ∀ p ∈ passwordOf map access, session.password = some p
  clientid : ∀ clientid ∈ clientidOf map, session.id.clientId = clientid
  ipaddr : ∀ addr ∈ ipaddrOf map, session.id.remoteAddr = some addr
  protocol : ∀ n ∈ protocolOf map, session.protocol = some (UInt8.ofNat n)

theorem usersOf_hit_iff :
    (∀ user ∈ usersOf map access,
        (user.hit session.id session.password session.protocol (access == .allow)).1 = true) ↔
      LeftMet map access session := by
  have parts : LeftMet map access session ↔
      (∀ name ∈ nameOf map, session.id.username = some name ∧
          ∀ p ∈ passwordOf map access, session.password = some p) ∧
        (∀ clientid ∈ clientidOf map, session.id.clientId = clientid) ∧
        (∀ addr ∈ ipaddrOf map, session.id.remoteAddr = some addr) ∧
        ∀ n ∈ protocolOf map, session.protocol = some (UInt8.ofNat n) :=
    ⟨fun h => ⟨h.name, h.clientid, h.ipaddr, h.protocol⟩, fun ⟨a, b, c, d⟩ => ⟨a, b, c, d⟩⟩
  rw [parts]
  unfold usersOf
  simp only [List.forall_mem_append, List.forall_mem_map, Option.mem_toList, username_hit_iff,
    and_assoc]
  refine and_congr_right fun _ => and_congr ?_ (and_congr ?_ ?_)
  · simp [User.hit]
  · cases from' : session.id.remoteAddr with
    | none => simp [User.hit, from']
    | some addr' =>
        simp only [User.hit, from', beq_iff_eq, Option.some.injEq]
        exact forall₂_congr fun _ _ => eq_comm
  · cases session.protocol <;> simp [User.hit]

/-- The flag of the last constraint that is left is that of the name, where it is the last. -/
theorem usersOf_last_iff (met : LeftMet map access session) :
    ((usersOf map access).getLast?.map fun user =>
        (user.hit session.id session.password session.protocol (access == .allow)).2).getD false =
          true ↔
      (nameOf map).isSome ∧ superuserOf map access = true ∧
        clientidOf map = none ∧ ipaddrOf map = none ∧ protocolOf map = none := by
  unfold usersOf
  cases protocolOf map with
  | some n =>
      rw [Option.toList_some, List.map_singleton, List.getLast?_append_of_ne_nil _ (by simp)]
      cases session.protocol <;> simp [User.hit]
  | none =>
      cases ipaddrOf map with
      | some addr =>
          cases from' : session.id.remoteAddr <;> simp [User.hit, from']
      | none =>
          cases clientidOf map with
          | some clientid =>
              simp [User.hit]
          | none =>
              cases name : nameOf map with
              | none => simp
              | some name' =>
                  have flag := username_hit_snd (met.name name' name).1 (met.name name' name).2
                  simp [flag]

/-- What is left of a configuration is all of it, where it is written well. -/
theorem WellWritten.meant_iff (written : WellWritten map access) :
    ObjectMeant map access session ↔ LeftMet map access session := by
  constructor
  · intro meant
    refine ⟨fun name hname => ?_, fun clientid hid => ?_, fun addr haddr => ?_, fun n hn => ?_⟩
    · obtain ⟨name', same, named, known⟩ := meant.user _ (nameOf_eq_some_iff.mp hname)
      cases same
      refine ⟨named, fun p hp => ?_⟩
      obtain ⟨allowed, s, given, rfl⟩ := passwordOf_eq_some_iff.mp hp
      exact known allowed s given
    · have same := meant.clientid _ (clientidOf_eq_some_iff.mp hid)
      cases same
      rfl
    · obtain ⟨addr', same, comes⟩ := meant.ipaddr _ (ipaddrOf_eq_some_iff.mp haddr)
      cases same
      exact comes
    · obtain ⟨n', same, level, speaks, value⟩ := meant.protocol _ (protocolOf_eq_some_iff.mp hn)
      cases same
      rw [speaks, ← value, UInt8.ofNat_toNat]
  · intro met
    refine ⟨written.configured, fun v hv => ?_, fun v hv => ?_, fun v hv => ?_, fun v hv => ?_⟩
    · obtain ⟨name, rfl⟩ := written.user v hv
      obtain ⟨named, known⟩ := met.name name (nameOf_eq_some_iff.mpr hv)
      exact ⟨name, rfl, named, fun allowed s given =>
        known _ (passwordOf_eq_some_iff.mpr ⟨allowed, s, given, rfl⟩)⟩
    · obtain ⟨clientid, rfl⟩ := written.clientid v hv
      rw [ClientidMeant, met.clientid clientid (clientidOf_eq_some_iff.mpr hv)]
    · obtain ⟨addr, rfl⟩ := written.ipaddr v hv
      exact ⟨addr, rfl, met.ipaddr addr (ipaddrOf_eq_some_iff.mpr hv)⟩
    · obtain ⟨n, rfl, small⟩ := written.protocol v hv
      refine ⟨n, rfl, _, met.protocol n (protocolOf_eq_some_iff.mpr hv), ?_⟩
      rw [UInt8.toNat_ofNat', Nat.mod_eq_of_lt small]

/-- A client that meets what is left of a configuration. -/
def leftClient (map : Fields) (access : Access) : Session where
  id := { clientId := (clientidOf map).getD "", username := nameOf map, remoteAddr := ipaddrOf map }
  password := passwordOf map access
  protocol := (protocolOf map).map UInt8.ofNat

theorem leftMet_leftClient : LeftMet map access (leftClient map access) where
  name _ hname := ⟨hname, fun _ hp => hp⟩
  clientid _ hid := by
    unfold leftClient
    rw [hid]
    rfl
  ipaddr _ haddr := haddr
  protocol _ hn := by
    unfold leftClient
    rw [hn]
    rfl

end

/-! ## The configurations that mean what they say -/

section

variable {ipTexts : Set String} {map : Fields} {rule : Rule} {session : Session}

theorem hits_fst_iff (users : rule.users = usersOf map rule.access) :
    (rule.hits session).1 = true ↔ LeftMet map rule.access session := by
  rw [Rule.hits, Rule.hit, users, hitAll_fst_iff, usersOf_hit_iff]

theorem hits_snd_iff (users : rule.users = usersOf map rule.access) :
    (rule.hits session).2 = true ↔ LeftMet map rule.access session ∧
      (nameOf map).isSome ∧ superuserOf map rule.access = true ∧
        clientidOf map = none ∧ ipaddrOf map = none ∧ protocolOf map = none := by
  rw [Rule.hits, Rule.hit, users, hitAll_snd_iff, usersOf_hit_iff]
  exact and_congr_right usersOf_last_iff

theorem marked_iff {access : Access} :
    Marked access (.object map) ↔ (nameOf map).isSome ∧ superuserOf map access = true := by
  unfold Marked
  rw [Option.isSome_iff_exists, superuserOf_iff]
  constructor
  · rintro ⟨allowed, _, name, same, named, flag⟩
    cases same
    exact ⟨⟨name, nameOf_eq_some_iff.mpr named⟩, allowed, flag⟩
  · rintro ⟨⟨name, named⟩, allowed, flag⟩
    exact ⟨allowed, map, name, rfl, nameOf_eq_some_iff.mp named, flag⟩

/-- A constraint of its type that is dropped is not there. -/
theorem lookup_eq_none {key : String} {β : Type} {read : Value → Option β}
    (typed : ∀ v ∈ map.lookup key, (read v).isSome) (none : (map.lookup key).bind read = none) :
    map.lookup key = .none := by
  cases found : map.lookup key with
  | none => rfl
  | some v =>
      rw [found] at none
      have some := typed v found
      rw [show read v = .none from none] at some
      cases some

/-- A configuration that is written well means what it says. -/
theorem WellWritten.means (users : rule.users = usersOf map rule.access)
    (written : WellWritten map rule.access) : MeansWhatItSays ipTexts (.object map) rule where
  hit session _ := (hits_fst_iff users).trans written.meant_iff.symm
  superuser session _ := by
    rw [hits_snd_iff users, ← written.meant_iff]
    refine and_congr_right fun _ => ?_
    rw [marked_iff, ← and_assoc]
    refine and_iff_left_of_imp fun marked => ?_
    obtain ⟨no_id, no_addr, no_level⟩ := written.superuser (marked_iff.mpr marked)
    unfold clientidOf ipaddrOf protocolOf
    rw [no_id, no_addr, no_level]
    exact ⟨rfl, rfl, rfl⟩

/-- A configuration for nobody hits nobody, and is meant for nobody. -/
theorem ForNobody.means (users : rule.users = usersOf map rule.access)
    (nobody : ForNobody ipTexts map) : MeansWhatItSays ipTexts (.object map) rule := by
  obtain ⟨addr, given, unknown⟩ := nobody
  have unmet : ∀ session, ComesFrom ipTexts session → ¬ LeftMet map rule.access session :=
    fun session comes met =>
      unknown (comes addr (met.ipaddr addr (ipaddrOf_eq_some_iff.mpr given)))
  have unmeant : ∀ session, ComesFrom ipTexts session →
      ¬ ObjectMeant map rule.access session := by
    intro session comes meant
    obtain ⟨addr', same, remote⟩ := meant.ipaddr _ given
    cases same
    exact unknown (comes addr remote)
  refine ⟨fun session comes => ?_, fun session comes => ?_⟩
  · rw [hits_fst_iff users]
    exact iff_of_false (unmet session comes) (unmeant session comes)
  · rw [hits_snd_iff users]
    exact iff_of_false (fun h => unmet session comes h.1) (fun h => unmeant session comes h.1)

/-- A configuration that means what it says, and is for somebody, is written well. -/
theorem MeansWhatItSays.written (users : rule.users = usersOf map rule.access)
    (means : MeansWhatItSays ipTexts (.object map) rule) (somebody : ¬ ForNobody ipTexts map) :
    WellWritten map rule.access := by
  have met : LeftMet map rule.access (leftClient map rule.access) := leftMet_leftClient
  have comes : ComesFrom ipTexts (leftClient map rule.access) := by
    intro addr haddr
    by_contra unknown
    exact somebody ⟨addr, ipaddrOf_eq_some_iff.mp haddr, unknown⟩
  have meant : ObjectMeant map rule.access (leftClient map rule.access) :=
    (means.hit _ comes).mp ((hits_fst_iff users).mpr met)
  have clientid : ∀ v ∈ map.lookup "clientid", ∃ clientid, v = .string clientid := fun v hv =>
    ⟨_, meant.clientid v hv⟩
  have ipaddr : ∀ v ∈ map.lookup "ipaddr", ∃ addr, v = .string addr := by
    intro v hv
    obtain ⟨addr, rfl, -⟩ := meant.ipaddr v hv
    exact ⟨addr, rfl⟩
  have protocol : ∀ v ∈ map.lookup "protocol", ∃ n, v = .number (.posInt n) ∧ n < 256 := by
    intro v hv
    obtain ⟨n, rfl, level, -, value⟩ := meant.protocol v hv
    exact ⟨n, rfl, value ▸ level.toNat_lt⟩
  refine ⟨meant.configured, fun v hv => ?_, clientid, ipaddr, protocol, fun marked => ?_⟩
  · obtain ⟨name, rfl, -, -⟩ := meant.user v hv
    exact ⟨name, rfl⟩
  · obtain ⟨-, -, -, no_id, no_addr, no_level⟩ :=
      (hits_snd_iff users).mp ((means.superuser _ comes).mpr ⟨meant, marked⟩)
    refine ⟨lookup_eq_none (fun v hv => ?_) no_id, lookup_eq_none (fun v hv => ?_) no_addr,
      lookup_eq_none (fun v hv => ?_) no_level⟩
    · obtain ⟨clientid, rfl⟩ := clientid v hv
      rfl
    · obtain ⟨addr, rfl⟩ := ipaddr v hv
      rfl
    · obtain ⟨n, rfl, -⟩ := protocol v hv
      rfl

end

/-- A rule is for whom its configuration says, and a superuser's where it says so, exactly when the
configuration is `all`, is for nobody, or is written well. -/
theorem users_mean_what_they_say_iff (ipTexts : Set String) (cfg : Value) (rule : Rule)
    (accepted : usersTryFrom cfg rule.access = .ok rule.users) :
    MeansWhatItSays ipTexts cfg rule ↔
      ∀ map, cfg = .object map → ForNobody ipTexts map ∨ WellWritten map rule.access := by
  cases cfg with
  | object map =>
      have users := users_of_object accepted
      constructor
      · rintro means _ ⟨⟩
        exact or_iff_not_imp_left.mpr (means.written users)
      · intro h
        rcases h map rfl with nobody | written
        · exact nobody.means users
        · exact written.means users
  | string all =>
      have lower : toLowercase all = "all" := by
        by_contra other
        rw [usersTryFrom, if_neg other] at accepted
        cases accepted
      rw [usersTryFrom, if_pos lower] at accepted
      have hits : ∀ session, rule.hits session = (true, false) := by
        intro session
        rw [Rule.hits, Rule.hit, ← Except.ok.inj accepted]
        rfl
      refine iff_of_true ⟨fun session _ => ?_, fun session _ => ?_⟩ nofun
      · rw [hits]
        exact iff_of_true rfl lower
      · rw [hits]
        refine iff_of_false (by decide) ?_
        rintro ⟨-, -, _, _, same, -⟩
        cases same
  | null => cases accepted
  | bool _ => cases accepted
  | number _ => cases accepted
  | array _ => cases accepted

/-- The rule of a superuser. -/
def userRule : Rule where
  access := .allow
  users := [.username "u" none true]
  control := .all
  topics := .empty

/-- The configuration of a superuser, by its name alone. -/
def userCfg : Fields := [("user", .string "u"), ("superuser", .bool true)]

theorem users_mean_what_they_say_superuser :
    MeansWhatItSays Set.univ (.object userCfg) userRule := by
  refine (users_mean_what_they_say_iff Set.univ (.object userCfg) userRule rfl).mpr ?_
  rintro map ⟨⟩
  refine .inr ⟨⟨"user", by simp, rfl⟩, fun v hv => ?_, nofun, nofun, nofun,
    fun _ => ⟨rfl, rfl, rfl⟩⟩
  cases hv
  exact ⟨"u", rfl⟩

/-! ## Four rules -/

/-- A client that has nothing to do with the rules below but its name and its id. -/
def client : Session where
  id := { clientId := "c", username := some "u", remoteAddr := some "10.0.0.1" }
  password := none
  protocol := some 4

/-- The rule of a configuration that allows. -/
def allowing (map : Fields) : Except ConfigError Rule :=
  Rule.tryFrom (.array [.string "allow", .object map])

/-- A rule without constraints, one whose constraint is a number, and one for level 260 hit a client
they are not for; a superuser who gives an id as well is none. -/
theorem dropped_constraints :
    (∃ rule, allowing [] = .ok rule ∧ (rule.hits client).1 = true ∧
      ¬ Meant .allow client (.object [])) ∧
    (∃ rule, allowing [("clientid", .number (.posInt 7))] = .ok rule ∧
      (rule.hits client).1 = true ∧
      ¬ Meant .allow client (.object [("clientid", .number (.posInt 7))])) ∧
    (∃ rule, allowing [("protocol", .number (.posInt 260))] = .ok rule ∧
      (rule.hits client).1 = true ∧
      ¬ Meant .allow client (.object [("protocol", .number (.posInt 260))])) ∧
    ∃ rule, allowing (userCfg ++ [("clientid", .string "c")]) = .ok rule ∧
      rule.hits client = (true, false) ∧
      Meant .allow client (.object (userCfg ++ [("clientid", .string "c")])) ∧
      Marked .allow (.object (userCfg ++ [("clientid", .string "c")])) := by
  refine ⟨⟨_, rfl, rfl, fun h => ?_⟩, ⟨_, rfl, rfl, fun h => ?_⟩, ⟨_, rfl, rfl, fun h => ?_⟩,
    _, rfl, rfl, ?_, rfl, _, "u", rfl, rfl, rfl⟩
  · obtain ⟨key, -, present⟩ := h.configured
    cases present
  · cases h.clientid _ rfl
  · obtain ⟨n, same, level, speaks, value⟩ := h.protocol _ rfl
    cases same
    cases speaks
    cases value
  · refine ⟨⟨"user", by simp, rfl⟩, ?_, ?_, nofun, nofun⟩
    · rintro v ⟨⟩
      exact ⟨"u", rfl, rfl, nofun⟩
    · rintro v ⟨⟩
      rfl

end OxiMqtt.Acl
