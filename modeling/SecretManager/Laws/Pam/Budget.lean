import SecretManager.Laws.Pam.Password

/-!
# The time budget of the hooks

A hook may start a derivation or a request only while its budget is not spent, and a request may
have no more time than is left. The hooks ask before every derivation, so the first holds of
derivations without exception. A timeout, though, is read off the budget and then kept: the session
hook connects and derives the key before it uses it, and the password hook uses it for one request
after the other.

**What holds** of a request is that its timeout was right when it was read. So it is right when it
is used if each operation in between takes no time or leaves a whole call budget. This is a
condition on how long the operations take, one by one (`Budget.SessionHarmless`,
`Budget.PasswordHarmless`). It names no operation without need: for each there is a hook that
overruns because this operation alone ends a nanosecond too late.

The hooks are taken to begin after their budget, as they do. Nothing is said about how long a
request takes; a daemon that answers late only delays what follows.
-/

namespace SecretManager.Pam

open Budget

variable {b : Budget} {prompt : Prop} {began : Nat} {timeout : Timeout} {x : Externals}

/-! ## What the budget asks -/

variable {now read left : Nat}
variable {args : List String}

section

variable (b : Budget)

/-- A request that is made now with this timeout stays within the budget. -/
def Budget.allows (now timeout : Nat) : Bool :=
  (b.remaining now).any fun left => decide (timeout ≤ left)

/-- No time has passed since the timeout was read, or a whole call budget is left. -/
def Budget.fresh (read now : Nat) : Bool :=
  decide (now = read) || decide (now + callBudget ≤ b.start + b.total)

def HookEvent.within : HookEvent → Bool
  | .derive now => (b.remaining now).isSome
  | .send now timeout _ => b.allows now timeout.left

/-- The timeout is fresh when it is used. -/
def HookEvent.fresh : HookEvent → Bool
  | .derive _ => true
  | .send now timeout _ => b.fresh timeout.read now

def SessionEvent.within : SessionEvent → Bool
  | .start e => e.within b
  | .unlock now timeout _ => b.allows now timeout.left

def SessionEvent.fresh : SessionEvent → Bool
  | .start _ => true
  | .unlock now timeout _ => b.fresh timeout.read now

/-- The first time at which the budget is spent. -/
def Budget.stop : Nat := b.start + b.total

/-- An operation that starts at this time and lasts this long takes no time, or leaves a whole call
budget. -/
def Budget.Harmless (t d : Nat) : Prop := d = 0 ∨ t + d + callBudget ≤ b.stop

/-- What the session hook does with a timeout in hand, and how long it may take: the socket is
looked at again and connected, and the key is derived. The budget may run out in the first two,
since no key is derived after it. -/
def Budget.SessionHarmless : Operation → Nat → Nat → Prop
  | .connect, t, d | .revalidate true, t, d => b.Harmless t d ∨ b.stop ≤ t + d
  | .derive, t, d => b.Harmless t d
  | _, _, _ => True

/-- What the password hook does with a timeout in hand: every request but the last. -/
def Budget.PasswordHarmless : Operation → Nat → Nat → Prop
  | .send false, t, d => b.Harmless t d
  | _, _, _ => True

end

/-- The hook began after its budget, and its operations last no longer than is harmless. -/
structure Budget.Prompt (b : Budget) (harmless : Operation → Nat → Nat → Prop)
    (tick : Operation → Nat → Nat → Nat) (began : Nat) : Prop where
  start : b.start ≤ began
  tick : ∀ op n t, b.start ≤ t → t < b.stop → harmless op t (tick op n t)

/-- What holds of the timeout of every request of a hook that began at this time: it was read off
the budget, in time and not after the request, and it is fresh if the hook's operations are
prompt. -/
structure Timeout.Proper (b : Budget) (prompt : Prop) (began now : Nat) (timeout : Timeout) :
    Prop where
  capped : b.capped callBudget timeout.read = some timeout.left
  began : began ≤ timeout.read
  earlier : timeout.read ≤ now
  fresh : prompt → b.fresh timeout.read now = true

theorem Budget.capped_eq {max : Nat} :
    b.capped max now = some left ↔ now - b.start < b.total ∧ left = min (b.total - (now - b.start)) max := by
  unfold capped remaining
  dsimp only
  split
  next here => simp [here, eq_comm]
  next spent => simp [spent]

theorem Budget.allows_iff :
    b.allows now left = true ↔ now - b.start < b.total ∧ left ≤ b.total - (now - b.start) := by
  unfold allows remaining
  dsimp only
  split
  next here => simp [here]
  next spent => simp [spent]

theorem callBudget_pos : 0 < callBudget := by
  unfold callBudget
  omega

theorem Budget.allows_of_fresh (capped : b.capped callBudget read = some left)
    (fresh : b.fresh read now = true) : b.allows now left = true := by
  obtain ⟨here, rfl⟩ := capped_eq.mp capped
  rw [Budget.allows_iff]
  rw [Budget.fresh, Bool.or_eq_true, decide_eq_true_eq, decide_eq_true_eq] at fresh
  have positive := callBudget_pos
  rcases fresh with rfl | rest
  · exact ⟨here, Nat.min_le_left _ _⟩
  · refine ⟨by omega, ?_⟩
    by_cases early : now ≤ b.start
    · exact (Nat.min_le_left _ _).trans (by omega)
    · exact (Nat.min_le_right _ _).trans (by omega)

/-- **A stale one is too long**, in a hook that began after its budget. -/
theorem Budget.fresh_of_allows (capped : b.capped callBudget read = some left)
    (began : b.start ≤ read) (later : read ≤ now) (allows : b.allows now left = true) :
    b.fresh read now = true := by
  obtain ⟨here, rfl⟩ := capped_eq.mp capped
  rw [Budget.allows_iff] at allows
  rw [Budget.fresh, Bool.or_eq_true, decide_eq_true_eq, decide_eq_true_eq]
  obtain ⟨unspent, short⟩ := allows
  by_cases same : now = read
  · exact .inl same
  · refine .inr ?_
    rcases min_choice (b.total - (read - b.start)) callBudget with h | h
    · rw [h] at short
      omega
    · rw [h] at short
      omega

theorem Timeout.Proper.allows (proper : timeout.Proper b prompt began now) (holds : prompt) :
    b.allows now timeout.left = true :=
  allows_of_fresh proper.capped (proper.fresh holds)

theorem Timeout.Proper.fresh_of_allows (proper : timeout.Proper b prompt began now)
    (late : b.start ≤ began) (allows : b.allows now timeout.left = true) :
    b.fresh timeout.read now = true :=
  Budget.fresh_of_allows proper.capped (late.trans proper.began) proper.earlier allows

/-! ## The session hook -/

section

variable {env : SessionEnv}

/-- A derivation starts within the budget, and the timeout of a request is proper. -/
def SessionEvent.Proper (b : Budget) (prompt : Prop) (began : Nat) : SessionEvent → Prop
  | .start e => e.within b = true
  | .unlock now timeout _ => timeout.Proper b prompt began now

/-- The clock has gone on, and what was started meanwhile is proper. -/
structure SessionState.Goes (b : Budget) (prompt : Prop) (began : Nat) (s s' : SessionState) :
    Prop where
  now : s.now ≤ s'.now
  events : began ≤ s.now → (∀ e ∈ s.events, e.Proper b prompt began) →
    ∀ e ∈ s'.events, e.Proper b prompt began

namespace SessionState.Goes

variable {s s' s'' : SessionState}

theorem refl (s : SessionState) : s.Goes b prompt began s := ⟨Nat.le_refl _, fun _ proper => proper⟩

theorem trans (first : s.Goes b prompt began s') (next : s'.Goes b prompt began s'') :
    s.Goes b prompt began s'' :=
  ⟨first.now.trans next.now,
    fun late proper => next.events (late.trans first.now) (first.events late proper)⟩

theorem elapse (env : SessionEnv) (op : Operation) (s : SessionState) :
    s.Goes b prompt began (s.elapse env op) :=
  ⟨Nat.le_add_right _ _, fun _ proper => proper⟩

theorem derive (x : Externals) (env : SessionEnv) (password : Bytes) (salt : Salt) (kdf : KdfParams)
    (s : SessionState) : s.Goes b prompt began (s.derive x env b password salt kdf).2 := by
  unfold SessionState.derive Pam.derive
  cases time : b.remaining s.now with
  | none => exact ⟨Nat.le_refl _, fun _ proper => by simpa using proper⟩
  | some left =>
    refine ⟨Nat.le_add_right _ _, fun _ proper e mem => ?_⟩
    rcases List.mem_append.mp mem with old | new
    · exact proper e old
    · obtain rfl := List.mem_singleton.mp new
      exact congrArg Option.isSome time

end SessionState.Goes

/-- A timeout that was read at this time may still be used, or the budget is spent. -/
def Budget.Held (b : Budget) (read now : Nat) : Prop := b.fresh read now = true ∨ b.stop ≤ now

theorem Budget.fresh_add {d : Nat} (fresh : b.fresh read now = true) (harmless : b.Harmless now d) :
    b.fresh read (now + d) = true := by
  rcases harmless with rfl | left
  · exact fresh
  · rw [Budget.fresh, Bool.or_eq_true, decide_eq_true_eq, decide_eq_true_eq]
    exact .inr left

/-- **A timeout in hand outlives** an operation that is harmless, if it starts within the budget. -/
theorem Budget.Held.add {d : Nat} (held : b.Held read now) (began : b.start ≤ now)
    (harmless : b.start ≤ now → now < b.stop → b.Harmless now d ∨ b.stop ≤ now + d) :
    b.Held read (now + d) := by
  by_cases spent : b.stop ≤ now
  · exact .inr (spent.trans (Nat.le_add_right _ _))
  · have fresh := held.resolve_right spent
    rcases harmless began (Nat.lt_of_not_le spent) with short | beyond
    · exact .inl (fresh_add fresh short)
    · exact .inr beyond

theorem Budget.lt_stop (time : b.remaining now = some left) (began : b.start ≤ now) :
    now < b.stop := by
  unfold remaining at time
  dsimp only at time
  split at time
  · unfold Budget.stop
    omega
  · cases time

variable {collection : String} {password : Bytes} {salt : Salt} {kdf : KdfParams} {call : Timeout}
variable {s₀ s : SessionState}

theorem startAfterClearing_goes {action : StaleSocket} :
    s.Goes b prompt began (startAfterClearing env action s).2 := by
  unfold startAfterClearing
  split
  · exact .refl s
  · split
    all_goals exact .elapse env .removeSocket s

theorem sessionHeaders_goes {t : Target} : ∀ {ids : List String} {s : SessionState},
    s.Goes b prompt began (sessionHeaders x env b t ids s).2 := by
  intro ids
  induction ids with
  | nil => exact .refl _
  | cons id ids ih =>
    intro s
    have onward : s.Goes b prompt began (sessionHeaders x env b t ids (s.elapse env .readHeader)).2 :=
      .trans (.elapse env _ s) ih
    unfold sessionHeaders
    split
    · exact .refl s
    · dsimp only
      split
      · exact onward
      · exact onward

theorem runSessionWork_goes {work : SessionState → SessionOutcome × SessionState}
    (goes : s.Goes b prompt began (work s).2) :
    s.Goes b prompt began (runSessionWork env work s).2 := by
  unfold runSessionWork
  dsimp only
  split
  · exact goes
  · exact ⟨goes.now, fun late proper e mem => goes.events late proper e (List.mem_of_mem_take mem)⟩

/-- A key is derived within the budget, and the timeout is as fresh after it as before. -/
theorem SessionState.derive_held {key : Key} {s' : SessionState}
    (lasts : b.Prompt b.SessionHarmless env.tick began)
    (derived : s.derive x env b password salt kdf = (some key, s')) (late : b.start ≤ s.now)
    (held : b.Held read s.now) : b.fresh read s'.now = true := by
  unfold SessionState.derive Pam.derive at derived
  cases time : b.remaining s.now with
  | none =>
    rw [time] at derived
    cases derived
  | some left =>
    rw [time] at derived
    obtain ⟨-, rfl⟩ := Prod.mk.inj derived
    have here := lt_stop time late
    exact fresh_add (held.resolve_right (Nat.not_le_of_lt here)) (lasts.tick .derive _ _ late here)

variable (lasts : prompt → b.Prompt b.SessionHarmless env.tick began)

include lasts

theorem unlockByKey_goes (before : s₀.Goes b prompt began s)
    (read : b.callTimeout s₀.now = some call)
    (held : began ≤ s₀.now → prompt → b.Held s₀.now s.now) :
    s₀.Goes b prompt began (unlockByKey x env b collection password salt kdf call s).2 := by
  obtain ⟨left, capped, rfl⟩ := Option.map_eq_some_iff.mp read
  have derives : s.Goes b prompt began (s.derive x env b password salt kdf).2 :=
    .derive x env password salt kdf s
  unfold unlockByKey
  rcases derived : s.derive x env b password salt kdf with ⟨key, s'⟩
  rw [derived] at derives
  have onward := before.trans derives
  cases key with
  | none => exact onward
  | some key =>
    refine ⟨onward.now.trans (Nat.le_add_right _ _), fun late proper e mem => ?_⟩
    rcases List.mem_append.mp mem with old | new
    · exact onward.events late proper e old
    · obtain rfl := List.mem_singleton.mp new
      refine ⟨capped, late, onward.now, fun holds => ?_⟩
      exact SessionState.derive_held (lasts holds) derived
        ((lasts holds).start.trans (late.trans before.now)) (held late holds)

theorem unlockOnce_goes (before : s₀.Goes b prompt began s)
    (read : b.callTimeout s₀.now = some call)
    (held : began ≤ s₀.now → prompt → b.Held s₀.now s.now) :
    s₀.Goes b prompt began (unlockOnce x env b collection password salt kdf call s).2 := by
  unfold unlockOnce
  split
  · exact before.trans (.elapse env .connect s)
  · refine unlockByKey_goes lasts (before.trans (.elapse env .connect s)) read fun late holds => ?_
    exact (held late holds).add ((lasts holds).start.trans (late.trans before.now))
      ((lasts holds).tick .connect _ _)

/-- A timeout that is used as soon as it is read. -/
theorem unlockOnce_goes_refl (read : b.callTimeout s.now = some call) :
    s.Goes b prompt began (unlockOnce x env b collection password salt kdf call s).2 :=
  unlockOnce_goes lasts (.refl s) read fun _ _ => .inl (by simp [Budget.fresh])

theorem retryUnlock_goes {waited : Bool} :
    s.Goes b prompt began (retryUnlock x env b collection password salt kdf waited s).2 := by
  have onward : s.Goes b prompt began (s.elapse env (.revalidate false)) := .elapse env _ s
  unfold retryUnlock
  generalize (if waited then some (env.revalidate s.ops) else none) = revalidated
  dsimp only
  split
  · exact onward
  · split
    · exact onward
    · have later := onward.trans (.elapse env .readClock (s.elapse env (.revalidate false)))
      split
      · exact later
      next call read => exact later.trans (unlockOnce_goes_refl lasts read)

theorem startAndRetry_goes {e : ErrorKind} :
    s.Goes b prompt began (startAndRetry x env b collection password salt kdf e s).2 := by
  unfold startAndRetry
  split
  · exact .refl s
  next action _ =>
    split
    · exact .refl s
    · have cleared : s.Goes b prompt began (startAfterClearing env action s).2 := startAfterClearing_goes
      split
      next s' stuck =>
        rw [stuck] at cleared
        exact cleared
      next s' clear =>
        rw [clear] at cleared
        split
        · exact cleared
        · refine cleared.trans (.trans (.elapse env .startDaemon _) ?_)
          exact .trans (.elapse env .waitFor _) (retryUnlock_goes lasts)

theorem sessionSocketTail_goes {autoStart : Bool} :
    s.Goes b prompt began (sessionSocketTail x env b autoStart collection password salt kdf s).2 := by
  unfold sessionSocketTail
  cases read : b.callTimeout s.now with
  | none => exact .refl s
  | some call =>
    have first : s.Goes b prompt began (unlockOnce x env b collection password salt kdf call s).2 :=
      unlockOnce_goes_refl lasts read
    dsimp only
    generalize unlockOnce x env b collection password salt kdf call s = attempt at first ⊢
    rcases attempt with ⟨e | _, s₁⟩
    · dsimp only
      split
      · exact first.trans (startAndRetry_goes lasts)
      · split
        · exact first
        · cases again : b.callTimeout s₁.now with
          | none => exact first
          | some call =>
            -- here the socket is looked at again between reading the timeout and using it
            have second : s₁.Goes b prompt began (unlockOnce x env b collection password salt kdf call
                (s₁.elapse env (.revalidate true))).2 := by
              refine unlockOnce_goes lasts (.elapse env _ s₁) again fun late holds => ?_
              exact Budget.Held.add (.inl (by simp [Budget.fresh])) ((lasts holds).start.trans late)
                ((lasts holds).tick (.revalidate true) _ _)
            dsimp only
            split
            · exact first.trans (.elapse env _ s₁)
            · generalize unlockOnce x env b collection password salt kdf call
                (s₁.elapse env (.revalidate true)) = attempt at second ⊢
              rcases attempt with ⟨e | _, s₂⟩
              · dsimp only
                split
                · exact first.trans (second.trans (startAndRetry_goes lasts))
                · exact first.trans second
              · exact first.trans second
    · exact first

theorem sessionSocketTailAll_goes {autoStart : Bool} :
    ∀ {vaults : List (String × Salt × KdfParams)} {first success : Option SessionOutcome}
      {s : SessionState}, s.Goes b prompt began
        (sessionSocketTailAll x env b autoStart password vaults first success s).2 := by
  intro vaults
  induction vaults with
  | nil => exact .refl _
  | cons vault vaults ih =>
    obtain ⟨id, salt, kdf⟩ := vault
    intro first success s
    unfold sessionSocketTailAll
    split
    · exact .refl s
    · have turn : s.Goes b prompt began (sessionSocketTail x env b autoStart id password salt kdf
          (s.elapse env .readClock)).2 := .trans (.elapse env _ s) (sessionSocketTail_goes lasts)
      dsimp only
      split
      · exact turn.trans ih
      · exact turn.trans ih

theorem openSessionDecision_goes {secret : Option Bytes} :
    s.Goes b prompt began (openSessionDecision x env b secret args s).2 := by
  unfold openSessionDecision
  cases secret with
  | none => exact .refl s
  | some password =>
    dsimp only
    split
    · exact .refl s
    next t _ =>
      split
      · exact .refl s
      · generalize allVaultIds (env.listing t.vaultDir) (parseOptions args).collection = ids
        have headers : s.Goes b prompt began (sessionHeaders x env b t ids s).2 := sessionHeaders_goes
        generalize sessionHeaders x env b t ids s = read at headers ⊢
        obtain ⟨vaults, s₁⟩ := read
        dsimp only
        split
        · exact headers
        · split
          · exact headers
          · have work : s₁.Goes b prompt began (runSessionWork env (sessionSocketTailAll x env b
                (parseOptions args).autoStart password vaults none none) s₁).2 :=
              runSessionWork_goes (sessionSocketTailAll_goes lasts)
            generalize runSessionWork env (sessionSocketTailAll x env b
              (parseOptions args).autoStart password vaults none none) s₁ = report at work ⊢
            obtain ⟨_ | codes, s₂⟩ := report
            · exact headers.trans work
            · exact headers.trans work

/-- **Every event of a session hook is proper.** -/
theorem openSessionDecision_proper {secret : Option Bytes} :
    ∀ e ∈ (openSessionDecision x env b secret args (.start began)).2.events, e.Proper b prompt began := by
  have goes : (SessionState.start began).Goes b prompt began
      (openSessionDecision x env b secret args (.start began)).2 := openSessionDecision_goes lasts
  exact goes.events (Nat.le_refl _) nofun

end

/-! ## The password hook -/

section

variable {env : HookEnv}

def HookEvent.Proper (b : Budget) (prompt : Prop) (began : Nat) : HookEvent → Prop
  | .derive now => (b.remaining now).isSome = true
  | .send now timeout _ => timeout.Proper b prompt began now

variable {s : HookState}

theorem passwordSocketTail_proper (env : HookEnv) (request : ChangeKey) (last : Bool)
    (timely : timeout.Proper b prompt began s.now)
    (proper : ∀ e ∈ s.events, e.Proper b prompt began) :
    ∀ e ∈ (passwordSocketTail env timeout request last s).2.events, e.Proper b prompt began := by
  unfold passwordSocketTail
  split
  · intro e mem
    rcases List.mem_append.mp mem with old | new
    · exact proper e old
    · obtain rfl := List.mem_singleton.mp new
      exact timely
  · exact proper

theorem passwordSocketTail_now (env : HookEnv) (timeout : Timeout) (request : ChangeKey)
    (last : Bool) (s : HookState) :
    (passwordSocketTail env timeout request last s).2.now = s.now + env.tick (.send last) s.ops s.now := by
  unfold passwordSocketTail
  split
  · rfl
  · rfl

theorem Budget.lt_stop_of_fresh (capped : b.capped callBudget read = some left)
    (began : b.start ≤ read) (fresh : b.fresh read now = true) : now < b.stop := by
  have here := (capped_eq.mp capped).1
  have positive := callBudget_pos
  rw [Budget.fresh, Bool.or_eq_true, decide_eq_true_eq, decide_eq_true_eq] at fresh
  unfold Budget.stop
  omega

theorem HookState.Derives.proper (derives : s.Derives b began) :
    ∀ e ∈ s.events, e.Proper b prompt began := by
  intro e mem
  obtain ⟨now, rfl, within⟩ := derives.events e mem
  exact within

variable (lasts : prompt → b.Prompt b.PasswordHarmless env.tick began)

include lasts

/-- **The requests of a round** keep to the timeout they were given: it is as fresh for the next one
as the last request left it. -/
theorem sendAll_proper :
    ∀ {requests : List ChangeKey} {s : HookState}, timeout.Proper b prompt began s.now →
    (∀ e ∈ s.events, e.Proper b prompt began) →
    ∀ e ∈ (sendAll env timeout requests s).2.events, e.Proper b prompt began := by
  intro requests
  induction requests with
  | nil => exact fun _ proper => proper
  | cons first rest ih =>
    intro s timely proper
    have turn := passwordSocketTail_proper env first rest.isEmpty timely proper
    cases rest with
    | nil => exact turn
    | cons second rest =>
      obtain ⟨capped, read, late, fresh⟩ := timely
      have later : timeout.Proper b prompt began (passwordSocketTail env timeout first false s).2.now := by
        rw [passwordSocketTail_now]
        refine ⟨capped, read, late.trans (Nat.le_add_right _ _), fun holds => ?_⟩
        have started := (lasts holds).start
        have here := lt_stop_of_fresh capped (started.trans read) (fresh holds)
        exact fresh_add (fresh holds)
          ((lasts holds).tick (.send false) _ _ (started.trans (read.trans late)) here)
      exact ih later turn

theorem sendBuilt_proper {built : Built} (derives : s.Derives b began) :
    ∀ e ∈ (sendBuilt env b built s).2.events, e.Proper b prompt began := by
  have proper : ∀ e ∈ s.events, e.Proper b prompt began := derives.proper
  unfold sendBuilt
  split
  · exact proper
  · split
    · exact proper
    · dsimp only
      split
      · exact proper
      next timeout read =>
        obtain ⟨left, capped, rfl⟩ := Option.map_eq_some_iff.mp read
        have timely : Timeout.Proper b prompt began (s.elapse env .readClock).now
            ⟨(s.elapse env .readClock).now, left⟩ :=
          ⟨capped, (derives.elapse env .readClock).now, Nat.le_refl _, fun _ => by simp [Budget.fresh]⟩
        split
        · exact sendAll_proper lasts timely proper
        · exact sendAll_proper lasts timely proper

/-- **Every event of a password hook is proper.** -/
theorem chauthtokDecision_proper {flags : Int32} {old new : Option Bytes} :
    ∀ e ∈ (chauthtokDecision x env flags old new args b (.start began)).2.events,
      e.Proper b prompt began := by
  unfold chauthtokDecision
  split
  · nofun
  · dsimp only
    cases old with
    | none => cases new <;> nofun
    | some old =>
      cases new with
      | none => nofun
      | some new =>
        cases env.resolveTarget (parseOptions args) with
        | none => nofun
        | some t =>
          dsimp only
          split
          · nofun
          · exact sendBuilt_proper lasts (buildRequests_derives ⟨Nat.le_refl began, nofun⟩)

end

/-! ## Both hooks -/

/-- **No slack beyond fresh timeouts**: in hooks that begin after their budget, an event that stays
within it is fresh. -/
theorem within_budget_is_fresh (x : Externals) (b : Budget) (args : List String)
    (began : b.start ≤ now) : (∀ (env : SessionEnv) (password : Option Bytes),
      ∀ e ∈ (openSessionDecision x env b password args (.start now)).2.events,
        e.within b = true → e.fresh b = true) ∧
    ∀ (env : HookEnv) (flags : Int32) (old new : Option Bytes),
      ∀ e ∈ (chauthtokDecision x env flags old new args b (.start now)).2.events,
        e.within b = true → e.fresh b = true := by
  constructor
  · intro env password e mem within
    have proper := openSessionDecision_proper False.elim e mem
    cases e with
    | start e => rfl
    | unlock at_ timeout request => exact proper.fresh_of_allows began within
  · intro env flags old new e mem within
    have proper := chauthtokDecision_proper False.elim e mem
    cases e with
    | derive at_ => rfl
    | send at_ timeout request => exact proper.fresh_of_allows began within

section

open Reference

set_option maxRecDepth 20000

/-- The time and the timeout of a request. -/
def SessionEvent.request : SessionEvent → Option (Nat × Nat)
  | .start _ => none
  | .unlock now timeout _ => some (now, timeout.left)

def HookEvent.request : HookEvent → Option (Nat × Nat)
  | .derive _ => none
  | .send now timeout _ => some (now, timeout.left)

/-- Every operation takes a nanosecond, in the first microsecond. -/
def brisk : Operation → Nat → Nat → Nat := fun _ _ now => if now < 1000 then 1 else 0

theorem within_budget_is_fresh_login : hookBudget.start ≤ 0 ∧
    ∀ e ∈ (login (twoVaults "wallet") brisk).2.events,
      e.within hookBudget = true → e.fresh hookBudget = true :=
  ⟨Nat.le_refl 0, (within_budget_is_fresh externals hookBudget [] (Nat.le_refl 0)).1 _ _⟩

/-- What a brisk operation takes is harmless to every hook. -/
theorem brisk_harmless (op : Operation) (n t : Nat) : hookBudget.Harmless t (brisk op n t) := by
  unfold brisk
  split
  · refine .inr ?_
    simp only [callBudget, Budget.stop, hookBudget]
    omega
  · exact .inl rfl

end

end SecretManager.Pam
