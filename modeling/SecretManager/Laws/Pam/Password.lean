import SecretManager.Pam.Reference
import SecretManager.Laws.Pam.Vaults

/-!
# A password change reaches the vaults

When the password hook reports that a change was sent, it has made a request for every collection it
enumerated whose header it accepted: a request that is not built, or not delivered, changes the
report. A collection that it does not enumerate, or whose header it refuses, does not, and no
request is made for it. So **a change that is sent reaches the collections that pass the hook's own
tests and no others**, which are not the daemon's tests.
-/

namespace SecretManager.Pam

open List

variable {x : Externals} {cfg : Config} {env : HookEnv} {budget : Budget}

/-! ## Building -/

variable {s : HookState}
variable {e : DirEntry} {id name : String} {kdf : KdfParams} {new old : Bytes} {request : ChangeKey}
  {salt : Salt} {t : Target} {v : Vault}

theorem changeKeyRequest_collection {s' : HookState}
    (ok : changeKeyRequest x env budget id old new salt kdf s = (some request, s')) :
    request.collection = id := by
  unfold changeKeyRequest at ok
  split at ok
  · cases ok
  · split at ok
    · cases ok
    · split at ok
      · cases ok
      · cases ok
        rfl

/-- **A complete round** builds a request for every collection whose header is accepted. -/
theorem buildRequests_complete : ∀ {ids : List String} {s : HookState},
    (buildRequests x env budget t old new ids s).1.incomplete = false → ∀ id ∈ ids,
        (vaultHeader x (env.dir t.vaultDir)[id ++ ".vault"]? t.uid (env.readable id)).isSome →
          ∃ request ∈ (buildRequests x env budget t old new ids s).1.requests, request.collection = id := by
  intro ids
  induction ids with
  | nil => exact fun _ id mem => absurd mem not_mem_nil
  | cons first rest ih =>
    intro s complete id mem accepted
    unfold buildRequests at complete ⊢
    cases htime : budget.remaining s.now with
    | none => rw [htime] at complete; cases complete
    | some left =>
      rw [htime] at complete
      dsimp only at complete ⊢
      cases hheader : vaultHeader x (env.dir t.vaultDir)[first ++ ".vault"]? t.uid
          (env.readable first) with
      | none =>
        rw [hheader] at complete
        rcases mem_cons.mp mem with rfl | later
        · rw [hheader] at accepted
          cases accepted
        · exact ih complete id later accepted
      | some found =>
        obtain ⟨salt, kdf⟩ := found
        rw [hheader] at complete
        dsimp only at complete ⊢
        rcases hbuilt : changeKeyRequest x env budget first old new salt kdf
            (s.elapse env .readHeader) with ⟨request, s'⟩
        rw [hbuilt] at complete
        cases request with
        | none => cases complete
        | some request =>
          dsimp only at complete ⊢
          rcases mem_cons.mp mem with rfl | later
          · exact ⟨request, mem_cons_self, changeKeyRequest_collection hbuilt⟩
          · obtain ⟨request', mem', named⟩ := ih complete id later accepted
            exact ⟨request', mem_cons_of_mem _ mem', named⟩

/-- A round builds requests for collections whose headers are accepted alone. -/
theorem buildRequests_accepted : ∀ {ids : List String} {s : HookState},
    ∀ request ∈ (buildRequests x env budget t old new ids s).1.requests, request.collection ∈ ids ∧
      (vaultHeader x (env.dir t.vaultDir)[request.collection ++ ".vault"]? t.uid
        (env.readable request.collection)).isSome = true := by
  intro ids
  induction ids with
  | nil => exact fun request mem => absurd mem not_mem_nil
  | cons first rest ih =>
    intro s request mem
    have later {s : HookState} (mem : request ∈ (buildRequests x env budget t old new rest s).1.requests) :=
      And.imp_left (mem_cons_of_mem first) (ih request mem)
    unfold buildRequests at mem
    split at mem
    · cases mem
    · dsimp only at mem
      split at mem
      · exact later mem
      next salt kdf header =>
        rcases hbuilt : changeKeyRequest x env budget first old new salt kdf
            (s.elapse env .readHeader) with ⟨built, s'⟩
        rw [hbuilt] at mem
        cases built with
        | none => exact later mem
        | some built =>
          rcases mem_cons.mp mem with rfl | mem
          · rw [changeKeyRequest_collection hbuilt, header]
            exact ⟨mem_cons_self, rfl⟩
          · exact later mem

/-- A hook that began at this time and has started derivations only, each within the budget. -/
structure HookState.Derives (b : Budget) (began : Nat) (s : HookState) : Prop where
  now : began ≤ s.now
  events : ∀ e ∈ s.events, ∃ now, e = .derive now ∧ (b.remaining now).isSome = true

variable {b : Budget} {began : Nat}

theorem HookState.Derives.elapse (before : s.Derives b began) (env : HookEnv) (op : Operation) :
    (s.elapse env op).Derives b began :=
  ⟨before.now.trans (Nat.le_add_right _ _), before.events⟩

theorem derive_derives {password : Bytes} (before : s.Derives b began) :
    (derive x env b password salt kdf s).2.Derives b began := by
  unfold derive
  cases time : b.remaining s.now with
  | none => exact before
  | some left =>
    refine ⟨before.now.trans (Nat.le_add_right _ _), fun e mem => ?_⟩
    rcases mem_append.mp mem with old | new
    · exact before.events e old
    · obtain rfl := mem_singleton.mp new
      exact ⟨s.now, rfl, by rw [time]; rfl⟩

theorem changeKeyRequest_derives (before : s.Derives b began) :
    (changeKeyRequest x env b id old new salt kdf s).2.Derives b began := by
  unfold changeKeyRequest
  split
  · exact before
  next newSalt _ =>
    have first : (derive x env b old salt kdf s).2.Derives b began := derive_derives before
    generalize derive x env b old salt kdf s = derived at first ⊢
    obtain ⟨_ | oldKey, s₁⟩ := derived
    · exact first
    · have second : (derive x env b new newSalt kdf s₁).2.Derives b began := derive_derives first
      dsimp only
      generalize derive x env b new newSalt kdf s₁ = derived at second ⊢
      obtain ⟨_ | newKey, s₂⟩ := derived
      · exact second
      · exact second

theorem buildRequests_derives : ∀ {ids : List String} {s : HookState},
    s.Derives b began → (buildRequests x env b t old new ids s).2.Derives b began := by
  intro ids
  induction ids with
  | nil => exact id
  | cons first rest ih =>
    intro s before
    unfold buildRequests
    split
    · exact before
    · dsimp only
      split
      · exact ih (before.elapse env .readHeader)
      next salt kdf _ =>
        have built : (changeKeyRequest x env b first old new salt kdf
            (s.elapse env .readHeader)).2.Derives b began :=
          changeKeyRequest_derives (before.elapse env .readHeader)
        generalize changeKeyRequest x env b first old new salt kdf (s.elapse env .readHeader) = request
          at built ⊢
        obtain ⟨_ | request, s₁⟩ := request
        · exact ih built
        · exact ih built

/-! ## Sending -/

theorem passwordSocketTail_events (env : HookEnv) (timeout : Timeout) (request : ChangeKey)
    (last : Bool) (s : HookState) :
    s.events ⊆ (passwordSocketTail env timeout request last s).2.events ∧
      ((passwordSocketTail env timeout request last s).1 = true →
        .send s.now timeout request ∈ (passwordSocketTail env timeout request last s).2.events) := by
  unfold passwordSocketTail
  split
  · exact ⟨subset_append_left _ _, fun _ => mem_append_right _ mem_cons_self⟩
  · exact ⟨List.Subset.refl _, nofun⟩

theorem sendAll_events (timeout : Timeout) : ∀ (requests : List ChangeKey) (s : HookState),
    s.events ⊆ (sendAll env timeout requests s).2.events ∧ ((sendAll env timeout requests s).1 = true →
        ∀ request ∈ requests, ∃ now, .send now timeout request ∈ (sendAll env timeout requests s).2.events) := by
  intro requests
  induction requests with
  | nil => exact fun s => ⟨List.Subset.refl _, fun _ request mem => absurd mem not_mem_nil⟩
  | cons first rest ih =>
    intro s
    obtain ⟨kept, made⟩ := passwordSocketTail_events env timeout first rest.isEmpty s
    obtain ⟨keptLater, madeLater⟩ := ih (passwordSocketTail env timeout first rest.isEmpty s).2
    refine ⟨List.Subset.trans kept keptLater, fun all request mem => ?_⟩
    obtain ⟨sent, sentLater⟩ := Bool.and_eq_true_iff.mp all
    rcases mem_cons.mp mem with rfl | later
    · exact ⟨s.now, keptLater (made sent)⟩
    · exact madeLater sentLater request later

theorem passwordSocketTail_requests {timeout given : Timeout} {first : ChangeKey} {last : Bool}
    {started : Nat}
    (made : .send started given request ∈ (passwordSocketTail env timeout first last s).2.events) :
    .send started given request ∈ s.events ∨ request = first := by
  unfold passwordSocketTail at made
  split at made
  · rcases mem_append.mp made with old | new
    · exact .inl old
    · cases mem_singleton.mp new
      exact .inr rfl
  · exact .inl made

theorem sendAll_requests {timeout : Timeout} : ∀ {requests : List ChangeKey} {s : HookState}
    {started : Nat} {given : Timeout} {request : ChangeKey},
    .send started given request ∈ (sendAll env timeout requests s).2.events →
      .send started given request ∈ s.events ∨ request ∈ requests := by
  intro requests
  induction requests with
  | nil => exact fun made => .inl made
  | cons first rest ih =>
    intro s started given request made
    rcases ih made with before | later
    · rcases passwordSocketTail_requests before with old | rfl
      · exact .inl old
      · exact .inr mem_cons_self
    · exact .inr (mem_cons_of_mem _ later)

/-- Only requests that were built are made. -/
theorem sendBuilt_requests {began started : Nat} {built : Built} {given : Timeout}
    (derives : s.Derives budget began)
    (made : .send started given request ∈ (sendBuilt env budget built s).2.events) :
    request ∈ built.requests := by
  have before : .send started given request ∉ s.events := fun mem => by
    obtain ⟨_, other, -⟩ := derives.events _ mem
    cases other
  unfold sendBuilt at made
  split at made
  · exact absurd made before
  · split at made
    · exact absurd made before
    · dsimp only at made
      split at made
      · exact absurd made before
      · split at made
        · exact (sendAll_requests made).resolve_left before
        · exact mem_of_mem_take ((sendAll_requests made).resolve_left before)

/-- **A report of success** means a complete round, all of whose requests were made. -/
theorem sendBuilt_sent {built : Built} (sent : (sendBuilt env budget built s).1 = .sent) :
    built.incomplete = false ∧ ∀ request ∈ built.requests, ∃ now timeout,
      .send now timeout request ∈ (sendBuilt env budget built s).2.events := by
  unfold sendBuilt at sent ⊢
  split at sent
  · split at sent <;> cases sent
  next some_built =>
    rw [if_neg some_built]
    cases htime : budget.remaining s.now with
    | none => rw [htime] at sent; cases sent
    | some _ =>
      rw [htime] at sent
      dsimp only at sent ⊢
      cases hleft : budget.callTimeout (s.elapse env .readClock).now with
      | none => rw [hleft] at sent; cases sent
      | some left =>
        rw [hleft] at sent
        cases hchild : env.child with
        | silent requests => rw [hchild] at sent; cases sent
        | reports =>
          rw [hchild] at sent
          dsimp only at sent ⊢
          split at sent
          next all =>
            obtain ⟨delivered, complete⟩ := Bool.and_eq_true_iff.mp all
            refine ⟨by simpa using complete, fun request mem => ?_⟩
            obtain ⟨now, made⟩ := (sendAll_events left built.requests _).2 delivered request mem
            exact ⟨now, left, made⟩
          · cases sent

theorem chauthtokDecision_sent {flags : Int32} {old new : Option Bytes} {args : List String}
    (target : env.resolveTarget (parseOptions args) = some t)
    (sent : (chauthtokDecision x env flags old new args budget s).1 = .sent) :
    ∃ old' new', chauthtokDecision x env flags old new args budget s =
      let round := buildRequests x env budget t old' new'
        (allVaultIds (env.listing t.vaultDir) (parseOptions args).collection) s
      sendBuilt env budget round.1 round.2 := by
  unfold chauthtokDecision at sent ⊢
  split at sent
  · cases sent
  next proper =>
    rw [if_neg proper]
    dsimp only at sent ⊢
    rw [target] at sent ⊢
    cases old with
    | none => cases new <;> cases sent
    | some old =>
      cases new with
      | none => cases sent
      | some new =>
        dsimp only at sent ⊢
        split at sent
        · cases sent
        next accepted =>
          rw [if_neg accepted]
          exact ⟨old, new, rfl⟩

/-! ## Every vault of the daemon -/

/-- The hook accepts the collection's file, which has this entry and opens as this vault. -/
structure Accepted (env : HookEnv) (t : Target) (id : String) (e : DirEntry) (v : Vault) :
    Prop where
  regular : e.fileType = .regular
  suitable : Suitable t.uid e v
  readable : env.readable id = true

theorem Loads.accepted (here : (env.dir t.vaultDir)[name]? = some e)
    (loads : Loads x cfg name e id v) :
    (vaultHeader x (env.dir t.vaultDir)[id ++ ".vault"]? t.uid (env.readable id)).isSome = true ↔
      Accepted env t id e v := by
  have named : name = id ++ ".vault" := @vaultStem_some cfg _ _ loads.stem
  rw [← named, here, loads.vaultHeader_isSome]
  exact ⟨fun ⟨regular, suitable, readable⟩ => ⟨regular, suitable, readable⟩,
    fun ⟨regular, suitable, readable⟩ => ⟨regular, suitable, readable⟩⟩

/-- **What a change that is sent has reached**: of the collections that would load, those that the
hook enumerates and whose files it accepts. -/
theorem chauthtokDecision_reaches {args : List String} {flags : Int32} {old new : Option Bytes}
    {now : Nat} (target : env.resolveTarget (parseOptions args) = some t)
    (sent : (chauthtokDecision x env flags old new args budget (.start now)).1 = .sent)
    (here : (env.dir t.vaultDir)[name]? = some e) (loads : Loads x cfg name e id v) :
    (∃ started timeout request, request.collection = id ∧ .send started timeout request ∈
        (chauthtokDecision x env flags old new args budget (.start now)).2.events) ↔
      Enumerated (env.listing t.vaultDir) (parseOptions args).collection id ∧ Accepted env t id e v := by
  obtain ⟨old', new', round⟩ := chauthtokDecision_sent target sent
  rw [round] at sent ⊢
  rw [← loads.mem_allVaultIds, ← loads.accepted here]
  constructor
  · rintro ⟨started, timeout, request, rfl, made⟩
    have start : (HookState.start now).Derives budget now := ⟨Nat.le_refl now, nofun⟩
    exact buildRequests_accepted request (sendBuilt_requests (buildRequests_derives start) made)
  · rintro ⟨enumerated, accepted⟩
    obtain ⟨complete, made⟩ := sendBuilt_sent sent
    obtain ⟨request, mem, named⟩ := buildRequests_complete complete id enumerated accepted
    obtain ⟨started, timeout, event⟩ := made request mem
    exact ⟨started, timeout, request, named, event⟩

/-- **A login sees what the daemon sees**, exactly as far as its own tests go. The hooks enumerate
every collection that a scan of the daemon opens, if each collection that would load is the
configured one or is listed as a regular file with an id within the hooks' limit, and not otherwise.
A password change that is reported as sent has been attempted for every collection that a scan
opens, if each of them is moreover the user's own regular file, written by nobody else, readable and
with parameters that a login accepts, and not otherwise. -/
theorem hooks_reach_every_loaded_vault (x : Externals) (cfg : Config) (env : HookEnv) (t : Target)
    (args : List String) (loaded : List String)
    (target : env.resolveTarget (parseOptions args) = some t) :
    ((∀ id ∈ (scanDir x cfg loaded (env.dir t.vaultDir)).1.opened.map Prod.fst,
        id ∈ allVaultIds (env.listing t.vaultDir) (parseOptions args).collection) ↔
      ∀ name e id v, (env.dir t.vaultDir)[name]? = some e → Loads x cfg name e id v → id ∉ loaded →
        Enumerated (env.listing t.vaultDir) (parseOptions args).collection id) ∧
    ∀ (flags : Int32) (old new : Option Bytes) (budget : Budget) (now : Nat),
      (chauthtokDecision x env flags old new args budget (.start now)).1 = .sent →
      ((∀ id ∈ (scanDir x cfg loaded (env.dir t.vaultDir)).1.opened.map Prod.fst,
          ∃ started timeout request, request.collection = id ∧ .send started timeout request ∈
            (chauthtokDecision x env flags old new args budget (.start now)).2.events) ↔
        ∀ name e id v, (env.dir t.vaultDir)[name]? = some e → Loads x cfg name e id v → id ∉ loaded →
          Enumerated (env.listing t.vaultDir) (parseOptions args).collection id ∧ Accepted env t id e v) := by
  constructor
  · constructor
    · intro all name e id v here loads fresh
      exact loads.mem_allVaultIds.mp (all id (mem_scanDir.mpr ⟨fresh, name, e, v, here, loads⟩))
    · intro all id opened
      obtain ⟨fresh, name, e, v, here, loads⟩ := mem_scanDir.mp opened
      exact loads.mem_allVaultIds.mpr (all name e id v here loads fresh)
  · intro flags old new budget now sent
    constructor
    · intro all name e id v here loads fresh
      exact (chauthtokDecision_reaches target sent here loads).mp
        (all id (mem_scanDir.mpr ⟨fresh, name, e, v, here, loads⟩))
    · intro all id opened
      obtain ⟨fresh, name, e, v, here, loads⟩ := mem_scanDir.mp opened
      exact (chauthtokDecision_reaches target sent here loads).mpr (all name e id v here loads fresh)

section

open Reference

set_option maxRecDepth 20000

theorem hookEnv_enumerated {dir : VaultDir} (path configured : String)
    (here : dir[id ++ ".vault"]? = some e) (regular : e.fileType = .regular)
    (short : id.utf8ByteSize ≤ maxCollectionLen) :
    Enumerated ((hookEnv dir).listing path) configured id := by
  refine .inr ⟨short, _, rfl, mem_map.mpr ⟨(_, e), ?_, by rw [regular]⟩⟩
  exact Std.ExtTreeMap.mem_toList_iff_getElem?_eq_some.mpr here

theorem twoVaults_cases {second : String} (here : (twoVaults second)[name]? = some e) :
    e = ownEntry ∧ (name = "default.vault" ∨ name = second ++ ".vault") := by
  unfold twoVaults at here
  rw [Std.ExtTreeMap.getElem?_insert] at here
  split at here
  next same => exact ⟨(Option.some.inj here).symm, .inr (Std.LawfulEqCmp.eq_of_compare same).symm⟩
  · rw [Std.ExtTreeMap.getElem?_insert] at here
    split at here
    next same => exact ⟨(Option.some.inj here).symm, .inl (Std.LawfulEqCmp.eq_of_compare same).symm⟩
    · simp at here

theorem ownEntry_suitable (loads : Loads externals config name ownEntry id v) :
    Suitable 1000 ownEntry v := by
  have kdf : (ownEntry.contents.bind (readHeader externals)).map (·.kdf) = some loginKdf := by
    decide
  rw [readHeader_of_open loads.opened] at kdf
  have hkdf : v.header.kdf = loginKdf := Option.some.inj kdf
  refine ⟨rfl, by decide, ?_⟩
  rw [hkdf]
  decide

/-- A user with the vaults `default` and `wallet`, and one password change. -/
theorem hooks_reach_every_loaded_vault_wallet : (passwordChange (twoVaults "wallet")).1 = .sent ∧
      ∃ started timeout request, request.collection = "wallet" ∧
        .send started timeout request ∈ (passwordChange (twoVaults "wallet")).2.events := by
  have sent : (passwordChange (twoVaults "wallet")).1 = .sent := by decide
  have opened : "wallet" ∈ (scanDir externals config []
      ((hookEnv (twoVaults "wallet")).dir user.vaultDir)).1.opened.map Prod.fst := by decide
  unfold passwordChange at sent ⊢
  refine ⟨sent, ((hooks_reach_every_loaded_vault externals config (hookEnv (twoVaults "wallet")) user
    [] [] rfl).2 _ _ _ _ _ sent).mpr ?_ "wallet" opened⟩
  intro name e id v here loads _
  obtain ⟨rfl, known⟩ := twoVaults_cases here
  have stem : name = id ++ ".vault" := @vaultStem_some config _ _ loads.stem
  have short : id.utf8ByteSize ≤ maxCollectionLen := by
    rcases known with rfl | rfl
    · obtain rfl : "default" = id := @Config.path_name_inj config _ _ stem
      decide
    · obtain rfl : "wallet" = id := @Config.path_name_inj config _ _ stem
      decide
  rw [stem] at here
  exact ⟨hookEnv_enumerated _ _ here rfl short, rfl, ownEntry_suitable loads, rfl⟩

/-- The event is not a request for this collection. -/
def HookEvent.passesOver (id : String) : HookEvent → Bool
  | .derive _ => true
  | .send _ _ request => request.collection != id

/-- The daemon loads a collection under the id it gave it, 69 characters long. The hooks do not list
it, and the password hook reports the change as sent without having tried. -/
theorem password_change_misses_long_id :
    longId ∈ (scanDir externals config [] (twoVaults longId)).1.opened.map Prod.fst ∧
      longId ∉ allVaultIds ((hookEnv (twoVaults longId)).listing user.vaultDir) (parseOptions []).collection ∧
      (passwordChange (twoVaults longId)).1 = .sent ∧
      ∀ started timeout request, .send started timeout request ∈ (passwordChange (twoVaults longId)).2.events →
          request.collection ≠ longId := by
  refine ⟨by decide, by decide, by decide, ?_⟩
  have passed : (passwordChange (twoVaults longId)).2.events.all (·.passesOver longId) = true := by
    decide
  intro started timeout request made
  simpa [HookEvent.passesOver] using all_eq_true.mp passed _ made

end

end SecretManager.Pam
