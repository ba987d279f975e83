import SecretManager.Import.Gnome
import SecretManager.Lib.Attempt

/-!
# What the gnome-keyring walk accounts for

The listings that a walk reads are known from the provider's replies alone (`Provider.listed`). At
every point of the walk each of them that was met stands behind one entry of the three lists or is a
candidate whose secret is still to be fetched (`Origins`), the secrets that are held stay within the
limit, and every path in a secret request was listed with metadata that could be read and a type
that unlocks nothing (`Safe`). The last two survive a failure.

The parts of the walk are described by triples.
-/

namespace SecretManager.Import.Gnome

open List Std.Do CollectionReplies

set_option mvcgen.warning false

/-! ## What is listed -/

def Reply.answer? {α : Type} : Reply α → Option α
  | .answered a => some a
  | _ => none

namespace CollectionReplies

/-- The name the collection goes by, if its label can be read. -/
def container? (c : CollectionReplies) : Option String := c.label.answer?.map (containerOf c.path)

def container (c : CollectionReplies) : String := c.container?.getD ""

/-- The collection is not the in-memory one, and the filter lets its name through. -/
def passes (options : ExtractOptions) (c : CollectionReplies) : Bool :=
  !isSessionCollection c.path && c.container?.any fun k => options.onlyContainer.all (· == k)

/-- The collection is unlocked, or can be. -/
def opens (options : ExtractOptions) (c : CollectionReplies) : Bool :=
  c.locked.answer?.any fun locked => !locked || (Gnome.unlock c.unlock c.path options.promptTimeout).toBool

end CollectionReplies

/-- An item as the provider lists it: its replies, and the collection it was listed in. -/
structure Listed where
  collection : CollectionReplies
  item : ItemReplies

def Candidate.listed (c : CollectionReplies) (k : Candidate) : Listed := ⟨c, k.item⟩

def CollectionReplies.listing (c : CollectionReplies) : List Listed :=
    (c.items.answer?.getD []).map fun i => ⟨c, i⟩

/-- The collections that match. -/
def passing (options : ExtractOptions) (visited : List CollectionReplies) :
    List CollectionReplies :=
  visited.filter fun c => c.passes options

def Provider.walked (provider : Provider) (options : ExtractOptions) : List CollectionReplies :=
  passing options (provider.collections.answer?.getD [])

/-- The listings that are read of a collection: none if it cannot be unlocked. -/
def CollectionReplies.read (options : ExtractOptions) (c : CollectionReplies) : List Listed :=
  if c.opens options then c.listing else []

/-- The listings that are read of the collections that match. -/
def Provider.listed (provider : Provider) (options : ExtractOptions) : List Listed :=
  (provider.walked options).flatMap fun c => c.read options

def ItemReplies.Known (i : ItemReplies) : Prop :=
  (∃ label, i.label = .answered label) ∧ (∃ attributes, i.attributes = .answered attributes) ∧
    (∃ created, i.created = .answered created) ∧ (∃ modified, i.modified = .answered modified) ∧
    readType i ≠ .unreadable

/-- The type is that of a secret that unlocks something else. -/
def ItemReplies.UnlockCredential (i : ItemReplies) : Prop :=
  ∃ type, readType i = .known type ∧ isUnlockCredentialType type = true

/-! ## Where an entry comes from -/

/-- The provider gave this secret for the listing, in the batch or by itself. -/
def Listed.Gives (x : Listed) (secret : SecretStruct) : Prop :=
  (batchReply x.collection.getSecrets).1[x.item.path]? = some secret ∨ x.item.getSecret = .answered secret

/-- The item is made of what was answered about the listing. -/
structure Carries (t : Transport) (x : Listed) (e : ExtractedItem) : Prop where
  provenance : e.item.provenance = .gnome x.collection.container (pathItemId x.item.path)
  label : x.item.label = .answered e.item.label
  attributes : x.item.attributes = .answered e.item.attributes
  created : x.item.created = .answered e.item.created
  modified : x.item.modified = .answered e.item.modified
  itemType : e.itemType = (readType x.item).type?
  secret : ∃ cipher secret, x.Gives secret ∧ cipherDecrypt t cipher secret = .ok e.item.secret ∧
    e.item.contentType = secret.contentType

structure Refuses (x : Listed) (row : ReportRow) : Prop where
  provenance : row.provenance = .gnome x.collection.container (pathItemId x.item.path)
  refused : row.isRefused = true

def Skips (x : Listed) (s : SkippedEntry) : Prop :=
  ∃ label, x.item.label = .answered label ∧ s.label = displayLabel label

/-- What the items of a collection leave as it is. -/
structure Frame where
  collections : List CollectionSummary
  seenContainers : List String
  matchedPaths : List String

def WalkState.frame (st : WalkState) : Frame :=
    ⟨st.out.collections, st.seenContainers, st.matchedPaths⟩

variable {α β : Type} {t : Transport} {cipher : SessionCipher} {options : ExtractOptions}
  {provider : Provider}
variable {listed : List Listed} {visited : List CollectionReplies} {met pending : List Listed}
  {frame : Frame}
variable {c : CollectionReplies} {batchFailure : Option String} {candidates : List Candidate}
  {k : Candidate}
variable {i : ItemReplies} {st : WalkState} {x : Listed} {out : Extraction} {row : ReportRow}
  {label : String}

/-- The listings behind the entries of the three lists. -/
structure Origins (t : Transport) (carried refused skipped : List Listed) (out : Extraction) :
    Prop where
  items : List.Forall₂ (Carries t) carried out.items
  refused : List.Forall₂ Refuses refused out.refused
  skipped : List.Forall₂ Skips skipped out.skipped

/-- Each listing that was met stands behind one entry, or is pending. -/
def Accounted (t : Transport) (met pending : List Listed) (out : Extraction) : Prop :=
  ∃ carried refused skipped, Origins t carried refused skipped out ∧ (carried ++ refused ++ skipped ++ pending).Perm met

theorem forall₂_concat {R : α → β → Prop} {as : List α} {bs : List β} {a : α} {b : β}
    (all : List.Forall₂ R as bs) (last : R a b) : List.Forall₂ R (as ++ [a]) (bs ++ [b]) :=
  rel_append all (.cons last .nil)

theorem Accounted.meet (acc : Accounted t met pending out) (x : Listed) :
    Accounted t (met ++ [x]) (pending ++ [x]) out := by
  obtain ⟨carried, refused, skipped, origins, perm⟩ := acc
  refine ⟨carried, refused, skipped, origins, ?_⟩
  rw [← append_assoc]
  exact perm.append_right _

theorem Accounted.perm {pending' : List Listed} (acc : Accounted t met pending out)
    (same : pending'.Perm pending) : Accounted t met pending' out := by
  obtain ⟨carried, refused, skipped, origins, perm⟩ := acc
  exact ⟨carried, refused, skipped, origins, (same.append_left _).trans perm⟩

theorem pending_perm (before after pending : List Listed) (x : Listed) :
    (before ++ [x] ++ after ++ pending).Perm (before ++ after ++ x :: pending) := by
  simp only [append_assoc, singleton_append]
  exact perm_middle.symm.append_left before

theorem Accounted.carry (acc : Accounted t met (x :: pending) out) {e : ExtractedItem}
    (carries : Carries t x e) : Accounted t met pending { out with items := out.items ++ [e] } := by
  obtain ⟨carried, refused, skipped, origins, perm⟩ := acc
  refine ⟨carried ++ [x], refused, skipped, ⟨forall₂_concat origins.items carries, origins.refused, origins.skipped⟩,
    .trans ?_ perm⟩
  simpa only [append_assoc] using pending_perm carried (refused ++ skipped) pending x

theorem Accounted.refuse (acc : Accounted t met (x :: pending) out) (refuses : Refuses x row) :
    Accounted t met pending { out with refused := out.refused ++ [row] } := by
  obtain ⟨carried, refused, skipped, origins, perm⟩ := acc
  refine ⟨carried, refused ++ [x], skipped, ⟨origins.items, forall₂_concat origins.refused refuses, origins.skipped⟩,
    .trans ?_ perm⟩
  simpa only [append_assoc] using pending_perm (carried ++ refused) skipped pending x

theorem Accounted.skip (acc : Accounted t met (x :: pending) out) {s : SkippedEntry}
    (skips : Skips x s) : Accounted t met pending { out with skipped := out.skipped ++ [s] } := by
  obtain ⟨carried, refused, skipped, origins, perm⟩ := acc
  refine ⟨carried, refused, skipped ++ [x], ⟨origins.items, origins.refused, forall₂_concat origins.skipped skips⟩,
    .trans ?_ perm⟩
  simpa only [append_assoc, nil_append] using pending_perm (carried ++ refused ++ skipped) [] pending x

/-! ## The state of the walk -/

/-- The bytes of the secrets that are held. -/
def WalkState.held (st : WalkState) : Nat := (st.out.items.map fun e => e.item.secret.length).sum

/-- What holds whenever the walk stops. -/
structure Safe (listed : List Listed) (st : WalkState) : Prop where
  bounded : st.held ≤ maxSecretBytes
  counted : st.held ≤ st.secretBytes
  backed : ∀ paths ∈ st.requests, ∀ p ∈ paths, ∃ x ∈ listed, x.item.path = p ∧ x.item.Known ∧ ¬x.item.UnlockCredential

def Frame.summarise (frame : Frame) (s : CollectionSummary) : Frame :=
  { frame with collections := frame.collections ++ [s] }

/-- The walk, with these listings met and these pending. -/
structure Sound (t : Transport) (listed met pending : List Listed) (frame : Frame)
    (st : WalkState) : Prop extends
    Safe listed st where
  accounted : Accounted t met pending st.out
  framed : st.frame = frame

theorem Safe.request (safe : Safe listed st) {paths : List String}
    (backed : ∀ p ∈ paths, ∃ x ∈ listed, x.item.path = p ∧ x.item.Known ∧ ¬x.item.UnlockCredential) :
    Safe listed { st with requests := st.requests ++ [paths] } := by
  refine ⟨safe.bounded, safe.counted, fun ps mem => ?_⟩
  rcases mem_append.mp mem with mem | mem
  · exact safe.backed ps mem
  · cases mem_singleton.mp mem
    exact backed

theorem Safe.count (safe : Safe listed st) (bytes : Nat) :
    Safe listed { st with secretBytes := KWallet.saturatingAdd st.secretBytes bytes } := by
  refine ⟨safe.bounded, ?_, safe.backed⟩
  have counted := safe.counted
  have bounded := safe.bounded
  change st.held ≤ min (st.secretBytes + bytes) KWallet.usizeMax
  simp only [maxSecretBytes, KWallet.usizeMax] at *
  omega

theorem Safe.carry (safe : Safe listed st) {e : ExtractedItem}
    (fits : KWallet.saturatingAdd st.secretBytes e.item.secret.length ≤ maxSecretBytes) :
    Safe listed
      { st with
        secretBytes := KWallet.saturatingAdd st.secretBytes e.item.secret.length
        out.items := st.out.items ++ [e] } := by
  have counted := safe.counted
  have total : KWallet.saturatingAdd st.secretBytes e.item.secret.length = st.secretBytes + e.item.secret.length := by
    simp only [KWallet.saturatingAdd, maxSecretBytes, KWallet.usizeMax] at *
    omega
  have held : WalkState.held
      { st with
        secretBytes := KWallet.saturatingAdd st.secretBytes e.item.secret.length
        out.items := st.out.items ++ [e] } = st.held + e.item.secret.length := by
    simp [WalkState.held]
  refine ⟨?_, ?_, safe.backed⟩
  · rw [held]
    omega
  · rw [held]
    change _ ≤ KWallet.saturatingAdd st.secretBytes e.item.secret.length
    omega

theorem Sound.refuse (sound : Sound t listed met (x :: pending) frame st)
    (refuses : Refuses x row) :
    Sound t listed met pending frame { st with out.refused := st.out.refused ++ [row] } :=
  ⟨⟨sound.bounded, sound.counted, sound.backed⟩, sound.accounted.refuse refuses, sound.framed⟩

theorem Sound.skip (sound : Sound t listed met (x :: pending) frame st) {s : SkippedEntry}
    (skips : Skips x s) :
    Sound t listed met pending frame { st with out.skipped := st.out.skipped ++ [s] } :=
  ⟨⟨sound.bounded, sound.counted, sound.backed⟩, sound.accounted.skip skips, sound.framed⟩

theorem Sound.summarise (sound : Sound t listed met pending frame st) (s : CollectionSummary) :
    Sound t listed met pending (frame.summarise s) { st with out.collections := st.out.collections ++ [s] } := by
  obtain ⟨carried, refused, skipped, origins, perm⟩ := sound.accounted
  refine ⟨⟨sound.bounded, sound.counted, sound.backed⟩, ⟨carried, refused, skipped, ?_, perm⟩, ?_⟩
  · exact ⟨origins.items, origins.refused, origins.skipped⟩
  · rw [← sound.framed]
    rfl

/-! ## The first pass -/

theorem call_eq_ok {name : String} {reply : Reply α} {a : α} :
    call name reply = .ok a ↔ reply = .answered a := by
  cases reply with
  | answered b | failed e | elapsed => simp [call]

/-- What a read of an item's metadata gives. -/
inductive ReadAs (container : String) (i : ItemReplies) : Metadata → Prop where
  | read {md : ItemMetadata} (label : i.label = .answered md.label) (attributes : i.attributes = .answered md.attributes)
      (created : i.created = .answered md.created) (modified : i.modified = .answered md.modified)
      (itemType : readType i = md.itemType) (provenance : md.provenance = .gnome container (pathItemId i.path)) :
      ReadAs container i (.read md)
  | refused {row : ReportRow} (provenance : row.provenance = .gnome container (pathItemId i.path))
      (refused : row.isRefused = true) : ReadAs container i (.refused row)

theorem readMetadata_readAs {container : String} {metadata : Metadata}
    (run : readMetadata i container = .ok metadata) : ReadAs container i metadata := by
  unfold readMetadata at run
  cases built : proxyAt "Item" i.proxy with
  | error e =>
    rw [built] at run
    cases run
  | ok _ =>
    rw [built] at run
    split at run
    next =>
      cases run
      exact .refused rfl rfl
    next label labelled =>
      split at run
      next =>
        cases run
        exact .refused rfl rfl
      next attributes mapped =>
        split at run
        next =>
          cases run
          exact .refused rfl rfl
        next created made =>
          split at run
          next =>
            cases run
            exact .refused rfl rfl
          next modified changed =>
            cases run
            exact .read (call_eq_ok.mp labelled) (call_eq_ok.mp mapped) (call_eq_ok.mp made) (call_eq_ok.mp changed)
              rfl rfl

/-- A candidate: its metadata were read, and its type unlocks nothing. -/
structure Eligible (c : CollectionReplies) (k : Candidate) : Prop where
  read : ReadAs c.container k.item (.read k.md)
  typed : k.md.itemType ≠ .unreadable
  harmless : ∀ type, k.md.itemType = .known type → isUnlockCredentialType type = false

theorem Eligible.known (eligible : Eligible c k) : k.item.Known ∧ ¬k.item.UnlockCredential := by
  obtain ⟨⟨label, attributes, created, modified, itemType, -⟩, typed, harmless⟩ := eligible
  refine ⟨⟨⟨_, label⟩, ⟨_, attributes⟩, ⟨_, created⟩, ⟨_, modified⟩, itemType ▸ typed⟩, ?_⟩
  rintro ⟨type, known, unlocks⟩
  rw [harmless type (itemType ▸ known)] at unlocks
  cases unlocks

/-- The candidates of a collection, so far. -/
structure Chosen (t : Transport) (listed met : List Listed) (frame : Frame) (c : CollectionReplies)
    (candidates : List Candidate) (st : WalkState) : Prop where
  sound : Sound t listed met (candidates.map (Candidate.listed c)) frame st
  eligible : ∀ k ∈ candidates, Eligible c k

theorem Chosen.refuse (chosen : Chosen t listed met frame c candidates st)
    (refuses : Refuses ⟨c, i⟩ row) (sawItem sawType : Bool) :
    Chosen t listed (met ++ [⟨c, i⟩]) frame c candidates
      { st with sawItem, sawType, out.refused := st.out.refused ++ [row] } := by
  obtain ⟨⟨safe, accounted, framed⟩, eligible⟩ := chosen
  have pending := (accounted.meet ⟨c, i⟩).perm (perm_append_singleton _ _).symm
  exact ⟨⟨⟨safe.bounded, safe.counted, safe.backed⟩, pending.refuse refuses, framed⟩, eligible⟩

theorem Chosen.choose (chosen : Chosen t listed met frame c candidates st) {md : ItemMetadata}
    (eligible : Eligible c ⟨i, md⟩) (sawItem sawType : Bool) :
    Chosen t listed (met ++ [⟨c, i⟩]) frame c (candidates ++ [⟨i, md⟩]) { st with sawItem, sawType } := by
  obtain ⟨⟨safe, accounted, framed⟩, others⟩ := chosen
  refine ⟨⟨⟨safe.bounded, safe.counted, safe.backed⟩, ?_, framed⟩, fun k mem => ?_⟩
  · rw [map_append]
    exact accounted.meet ⟨c, i⟩
  · rcases mem_append.mp mem with mem | mem
    · exact others k mem
    · cases mem_singleton.mp mem
      exact eligible

/-- One item of a listing is met: it becomes a candidate, or is refused or skipped in the report. -/
theorem consider_spec (candidates : List Candidate) (i : ItemReplies) :
    ⦃fun st => ⌜Chosen t listed met frame c candidates st⌝⦄
    consider c.container candidates i
    ⦃post⟨fun candidates' st => ⌜Chosen t listed (met ++ [⟨c, i⟩]) frame c candidates' st⌝,
      fun _ st => ⌜Safe listed st⌝⟩⦄ := by
  mvcgen [consider, Walk.refuse]
  case vc1 st chosen _ read row shape _ =>
    subst shape
    cases readMetadata_readAs read with
    | refused provenance refused => exact chosen.refuse ⟨provenance, refused⟩ _ _
  case vc2 st chosen _ read md shape _ type typed _ unlocks _ =>
    subst shape
    obtain ⟨-, -, -, -, -, provenance⟩ := readMetadata_readAs read
    exact chosen.refuse ⟨provenance, rfl⟩ _ _
  case vc3 st chosen _ read md shape _ type typed _ harmless =>
    subst shape
    refine chosen.choose ⟨readMetadata_readAs read, by rw [typed]; nofun, fun type' typed' => ?_⟩ _ _
    rw [typed] at typed'
    cases typed'
    exact Bool.eq_false_iff.mpr harmless
  case vc4 st chosen _ read md shape _ typed =>
    subst shape
    exact chosen.choose ⟨readMetadata_readAs read, by rw [typed]; nofun, by rw [typed]; nofun⟩ _ _
  case vc5 st chosen _ read md shape _ typed _ =>
    subst shape
    obtain ⟨-, -, -, -, -, provenance⟩ := readMetadata_readAs read
    exact chosen.refuse ⟨provenance, rfl⟩ _ _
  case vc6 st chosen _ _ =>
    exact chosen.sound.toSafe

/-! ## The second pass -/

/-- What is left of the batch came with it. -/
def Within (c : CollectionReplies) (d : Drain) : Prop :=
  ∀ (p : String) secret, d.batch[p]? = some secret → (batchReply c.getSecrets).1[p]? = some secret

theorem Within.remove {d : Drain} (within : Within c d) (p : String) : Within c (d.remove p) := by
  intro q secret left
  unfold Drain.remove at left
  rw [Std.ExtTreeMap.getElem?_erase] at left
  split at left
  · cases left
  · exact within q secret left

section

variable (eligible : Eligible c k)
include eligible

theorem Eligible.backs (mem : k.listed c ∈ listed) :
    ∃ x ∈ listed, x.item.path = k.item.path ∧ x.item.Known ∧ ¬x.item.UnlockCredential :=
  ⟨k.listed c, mem, rfl, eligible.known⟩

theorem Eligible.carries {secret : SecretStruct} {plaintext : Bytes}
    (gives : (k.listed c).Gives secret)
    (decrypted : cipherDecrypt t cipher secret = .ok plaintext) :
    Carries t (k.listed c) ⟨k.source secret plaintext, k.md.itemType.type?⟩ := by
  obtain ⟨⟨label, attributes, created, modified, itemType, provenance⟩, -, -⟩ := eligible
  exact ⟨provenance, label, attributes, created, modified, itemType ▸ rfl, cipher, secret, gives, decrypted, rfl⟩

theorem Eligible.refuses (refusal : Refusal) :
    Refuses (k.listed c) (.refused k.md.provenance k.md.label refusal) := by
  obtain ⟨⟨-, -, -, -, -, provenance⟩, -, -⟩ := eligible
  exact ⟨provenance, rfl⟩

theorem Eligible.skips (reason : String) :
    Skips (k.listed c) ⟨displayLabel k.md.label, reason⟩ := by
  obtain ⟨⟨label, -, -, -, -, -⟩, -, -⟩ := eligible
  exact ⟨k.md.label, label, rfl⟩

theorem getSecret_spec (mem : k.listed c ∈ listed) :
    ⦃fun st => ⌜Sound t listed met pending frame st⌝⦄
    getSecret batchFailure k.item
    ⦃post⟨fun fetched st => ⌜Sound t listed met pending frame st ∧ ∀ secret, fetched = .ok secret → (k.listed c).Gives secret⌝,
      fun _ st => ⌜Safe listed st⌝⟩⦄ := by
  mvcgen [getSecret, Walk.request]
  case vc1 _ _ st sound =>
    exact ⟨sound, nofun⟩
  case vc2 _ st sound _ _ =>
    refine sound.toSafe.request fun p named => ?_
    cases mem_singleton.mp named
    exact eligible.backs mem
  case vc3 _ st sound _ _ =>
    refine ⟨⟨sound.toSafe.request fun p named => ?_, sound.accounted, sound.framed⟩, fun secret answered => .inr ?_⟩
    · cases mem_singleton.mp named
      exact eligible.backs mem
    · cases reply : k.item.getSecret with
      | answered s =>
        rw [reply] at answered
        cases answered
        exact reply
      | failed e | elapsed =>
        rw [reply] at answered
        cases answered

theorem keep_spec {secret : SecretStruct} (gives : (k.listed c).Gives secret) (d : Drain) :
    ⦃fun st => ⌜Sound t listed met (k.listed c :: pending) frame st⌝⦄
    keep t cipher d k secret
    ⦃post⟨fun d' st => ⌜Sound t listed met pending frame st ∧ d'.batch = d.batch⌝, fun _ st => ⌜Safe listed st⌝⟩⦄ := by
  mvcgen [keep, Drain.skip, Walk.skip, Walk.count, Walk.refuse, Walk.carry]
  case vc1 e _ st sound _ =>
    exact sound.skip (eligible.skips _)
  case vc2 plaintext _ st sound _ _ =>
    exact sound.toSafe.count plaintext.length
  case vc3 plaintext _ st sound _ _ violation _ _ =>
    have counted : Sound t listed met (k.listed c :: pending) frame
        { st with secretBytes := KWallet.saturatingAdd st.secretBytes plaintext.length } :=
      ⟨sound.toSafe.count plaintext.length, sound.accounted, sound.framed⟩
    exact counted.refuse (eligible.refuses violation)
  case vc4 plaintext decrypted st sound _ fits _ _ =>
    exact ⟨sound.toSafe.carry (e := ⟨k.source secret plaintext, k.md.itemType.type?⟩) (not_lt.mp fits),
      sound.accounted.carry (eligible.carries gives decrypted), sound.framed⟩

theorem fetchOne_spec (mem : k.listed c ∈ listed) {d : Drain} (within : Within c d) :
    ⦃fun st => ⌜Sound t listed met pending frame st⌝⦄
    fetchOne batchFailure d k
    ⦃post⟨fun fetched st => ⌜Sound t listed met pending frame st ∧ ∀ secret, fetched = .ok secret → (k.listed c).Gives secret⌝,
      fun _ st => ⌜Safe listed st⌝⟩⦄ := by
  unfold fetchOne
  split
  next secret held =>
    mvcgen
    case vc1 st sound =>
      refine ⟨sound, fun s same => .inl ?_⟩
      cases same
      exact within k.item.path secret held
  next => exact getSecret_spec eligible mem

theorem drainOne_spec (mem : k.listed c ∈ listed) (d : Drain) :
    ⦃fun st => ⌜Sound t listed met (k.listed c :: pending) frame st ∧ Within c d⌝⦄
    drainOne t cipher batchFailure d k
    ⦃post⟨fun d' st => ⌜Sound t listed met pending frame st ∧ Within c d'⌝, fun _ st => ⌜Safe listed st⌝⟩⦄ := by
  have fetched := fun within : Within c d =>
    @fetchOne_spec t listed met (k.listed c :: pending) frame c batchFailure k eligible mem d within
  have kept := fun secret gives d => @keep_spec t cipher listed met pending frame c k eligible secret gives d
  mvcgen [drainOne, fetched, kept, Drain.skip, Walk.skip]
  case vc1 st pre => exact pre.2
  case vc2 st pre => exact pre.1
  case vc3 _ pre _ _ _ st post _ => exact ⟨post.1.skip (eligible.skips _), pre.2.remove k.item.path⟩
  case vc4 st post => exact post.1
  case vc5 _ pre _ _ _ _ _ d' st =>
    intro sound batch
    exact ⟨sound, fun p secret left => pre.2.remove k.item.path p secret (batch ▸ left)⟩
  case vc6 _ _ _ secret _ =>
    intro _ _ gives
    exact gives secret rfl

end

/-- The loop over a batch, by induction over the candidates that still wait for their secret. -/
theorem drain_spec (eligible : ∀ k ∈ candidates, Eligible c k)
    (mem : ∀ k ∈ candidates, k.listed c ∈ listed) (d : Drain) :
    ⦃fun st => ⌜Sound t listed met (candidates.map (Candidate.listed c)) frame st ∧ Within c d⌝⦄
    candidates.foldlM (drainOne t cipher batchFailure) d
    ⦃post⟨fun _ st => ⌜Sound t listed met [] frame st⌝, fun _ st => ⌜Safe listed st⌝⟩⦄ := by
  induction candidates generalizing d with
  | nil =>
    rw [foldlM_nil]
    mvcgen
    case vc1 st pre => exact pre.1
  | cons k rest ih =>
    have one := @drainOne_spec t cipher listed met (rest.map (Candidate.listed c)) frame c batchFailure k
      (eligible k mem_cons_self) (mem k mem_cons_self)
    have others := ih (fun k h => eligible k (mem_cons_of_mem _ h)) fun k h => mem k (mem_cons_of_mem _ h)
    exact Triple.bind _ _ (one d) others

theorem drainBatch_spec (eligible : ∀ k ∈ candidates, Eligible c k)
    (mem : ∀ k ∈ candidates, k.listed c ∈ listed) :
    ⦃fun st => ⌜Sound t listed met (candidates.map (Candidate.listed c)) frame st⌝⦄
    drainBatch t cipher candidates (batchReply c.getSecrets).1 batchFailure
    ⦃post⟨fun _ st => ⌜Sound t listed met [] frame st⌝, fun _ st => ⌜Safe listed st⌝⟩⦄ := by
  have drained := @drain_spec t cipher listed met frame c batchFailure candidates eligible mem
    { batch := (batchReply c.getSecrets).1 }
  have start := Triple.entails_wp_of_pre drained fun st sound => ⟨sound, fun p secret given => given⟩
  refine Triple.bind _ _ (Triple.iff.mpr start) fun d => ?_
  mvcgen
  case vc1 st sound => exact sound.toSafe

theorem fetchSecrets_spec (eligible : ∀ k ∈ candidates, Eligible c k)
    (mem : ∀ k ∈ candidates, k.listed c ∈ listed) :
    ⦃fun st => ⌜Sound t listed met (candidates.map (Candidate.listed c)) frame st⌝⦄
    fetchSecrets t cipher c candidates
    ⦃post⟨fun _ st => ⌜Sound t listed met [] frame st⌝, fun _ st => ⌜Safe listed st⌝⟩⦄ := by
  have drained := fun batchFailure =>
    @drainBatch_spec t cipher listed met frame c batchFailure candidates eligible mem
  mvcgen [fetchSecrets, Walk.request, drained]
  case vc1 empty st sound =>
    rw [isEmpty_iff.mp empty] at sound
    exact sound
  case vc2 st sound _ =>
    refine ⟨sound.toSafe.request fun p named => ?_, sound.accounted, sound.framed⟩
    obtain ⟨k, chosen, rfl⟩ := mem_map.mp named
    exact (eligible k chosen).backs (mem k chosen)

/-! ## One collection -/

theorem Accounted.pending_subset (acc : Accounted t met pending out) : pending ⊆ met := by
  obtain ⟨carried, refused, skipped, -, perm⟩ := acc
  exact fun x mem => perm.subset (mem_append_right _ mem)

/-- What the summary of a collection says of it. -/
structure Summarises (options : ExtractOptions) (c : CollectionReplies) (s : CollectionSummary) :
    Prop where
  path : s.path = c.path
  unanswerable : s.unanswerablePrompt = !c.opens options

theorem considerAll_spec (items : List ItemReplies) (candidates : List Candidate) :
    ⦃fun st => ⌜Chosen t listed met frame c candidates st⌝⦄
    items.foldlM (consider c.container) candidates
    ⦃post⟨fun candidates' st => ⌜Chosen t listed (met ++ items.map fun i => ⟨c, i⟩) frame c candidates' st⌝,
      fun _ st => ⌜Safe listed st⌝⟩⦄ := by
  induction items generalizing met candidates with
  | nil =>
    rw [foldlM_nil, map_nil, append_nil]
    mvcgen
  | cons i items ih =>
    rw [map_cons, append_cons]
    exact Triple.bind _ _ (consider_spec candidates i) ih

theorem twoPasses_spec {items : List ItemReplies} (answered : c.items = .answered items)
    (sub : met ++ c.listing ⊆ listed) : ⦃fun st => ⌜Sound t listed met [] frame st⌝⦄
    twoPasses t cipher c c.container items
    ⦃post⟨fun _ st => ⌜Sound t listed (met ++ c.listing) [] frame st⌝, fun _ st => ⌜Safe listed st⌝⟩⦄ := by
  have listing : c.listing = items.map fun i => ⟨c, i⟩ := by
    rw [listing, answered]
    rfl
  have considered := Triple.entails_wp_of_pre (@considerAll_spec t listed met frame c items [])
    fun st sound => ⟨sound, fun k none => absurd none not_mem_nil⟩
  refine Triple.bind _ _ (Triple.iff.mpr considered) fun candidates => Triple.iff.mpr fun st chosen => ?_
  rw [← listing] at chosen
  have pending := chosen.sound.accounted.pending_subset
  exact Triple.iff.mp (fetchSecrets_spec chosen.eligible
    fun k mem => sub (pending (mem_map_of_mem mem))) st chosen.sound

theorem walkItems_spec (summary : CollectionSummary) (sub : met ++ c.listing ⊆ listed) :
    ⦃fun st => ⌜Sound t listed met [] frame st⌝⦄
    walkItems t cipher c c.container summary
    ⦃post⟨fun _ st => ⌜∃ n, Sound t listed (met ++ c.listing) [] (frame.summarise { summary with itemCount := n }) st⌝,
      fun _ st => ⌜Safe listed st⌝⟩⦄ := by
  have passes := fun items answered =>
    @twoPasses_spec t cipher listed met (frame.summarise { summary with itemCount := some items.length }) c items
      answered sub
  mvcgen [walkItems, Walk.summarise, passes]
  case vc1 st sound _ _ _ => exact sound.toSafe
  case vc2 answered _ _ => exact call_eq_ok.mp answered
  case vc3 st sound _ _ _ _ => exact sound.summarise _
  case vc4 _ _ items _ _ _ _ st =>
    intro sound
    exact ⟨some items.length, sound⟩
  case vc5 st sound _ _ => exact sound.toSafe

theorem CollectionReplies.opens_eq {locked : Bool} (answered : c.locked = .answered locked) :
    c.opens options = (!locked || (Gnome.unlock c.unlock c.path options.promptTimeout).toBool) := by
  rw [opens, answered]
  rfl

theorem CollectionReplies.read_of_opens (opens : c.opens options = true) :
    c.read options = c.listing := by
  rw [CollectionReplies.read, if_pos opens]

/-- **A collection that passed the filter** is read if it opens, and reported as unanswerable if
not. -/
theorem walkMatched_spec (labelled : c.label = .answered label)
    (sub : met ++ c.read options ⊆ listed) : ⦃fun st => ⌜Sound t listed met [] frame st⌝⦄
    walkMatched t cipher options c label (containerOf c.path label)
    ⦃post⟨fun _ st => ⌜∃ s, Summarises options c s ∧ Sound t listed (met ++ c.read options) [] (frame.summarise s) st⌝,
      fun _ st => ⌜Safe listed st⌝⟩⦄ := by
  have named : containerOf c.path label = c.container := by
    simp [container, container?, labelled, Reply.answer?]
  rw [named]
  have items := fun summary sub => @walkItems_spec t cipher listed met frame c summary sub
  mvcgen [walkMatched, Walk.summarise, items]
  -- locked, and unlocked now
  case vc1 answered _ _ _ _ _ locked opened =>
    subst locked
    have opens : c.opens options = true := by rw [opens_eq (call_eq_ok.mp answered), opened]; rfl
    exact read_of_opens opens ▸ sub
  case vc3 answered _ _ _ _ _ locked opened _ st =>
    subst locked
    have opens : c.opens options = true := by rw [opens_eq (call_eq_ok.mp answered), opened]; rfl
    rintro ⟨n, sound⟩
    exact ⟨_, ⟨rfl, by rw [opens]; rfl⟩, read_of_opens opens ▸ sound⟩
  -- locked, and it stays so
  case vc4 st sound _ answered _ _ _ _ summary locked e refused _ _ =>
    subst locked
    have shut : c.opens options = false := by rw [opens_eq (call_eq_ok.mp answered), refused]; rfl
    refine ⟨{ summary with unanswerablePrompt := true }, ⟨rfl, by rw [shut]; rfl⟩, ?_⟩
    rw [CollectionReplies.read, shut, if_neg Bool.false_ne_true, append_nil]
    exact sound.summarise _
  case vc5 st sound _ _ _ _ _ _ _ _ _ _ _ => exact sound.toSafe
  -- not locked
  case vc6 answered _ _ _ _ _ unlocked =>
    have opens : c.opens options = true := by
      rw [opens_eq (call_eq_ok.mp answered), Bool.eq_false_iff.mpr unlocked]; rfl
    exact read_of_opens opens ▸ sub
  case vc8 answered _ _ _ _ _ unlocked _ st =>
    have opens : c.opens options = true := by
      rw [opens_eq (call_eq_ok.mp answered), Bool.eq_false_iff.mpr unlocked]; rfl
    rintro ⟨n, sound⟩
    exact ⟨_, ⟨rfl, by rw [opens]; rfl⟩, read_of_opens opens ▸ sound⟩
  -- its state or its times could not be read
  case vc9 st sound _ _ _ _ _ _ => exact sound.toSafe
  case vc10 st sound _ _ _ _ => exact sound.toSafe
  case vc11 st sound _ _ => exact sound.toSafe

/-! ## The walk -/

/-- The listings that the walk has read after these collections. -/
def reads (options : ExtractOptions) (visited : List CollectionReplies) : List Listed :=
  (passing options visited).flatMap fun c => c.read options

/-- What the walk knows of the collections it visited. -/
structure Walked (options : ExtractOptions) (visited : List CollectionReplies) (frame : Frame) :
    Prop where
  seen : ∀ k ∈ frame.seenContainers, ∃ c ∈ visited, isSessionCollection c.path = false ∧ c.container? = some k
  matched : options.onlyContainer.isSome →
    (passing options visited).length = frame.matchedPaths.length ∧ frame.matchedPaths.length ≤ 1
  summaries : List.Forall₂ (Summarises options) (passing options visited) frame.collections

/-- **The invariant of the walk** over the collections: what was done to the items so far accounts
for all that was read, and the summaries are those of the collections visited. -/
structure Progress (t : Transport) (options : ExtractOptions) (listed : List Listed)
    (visited : List CollectionReplies) (st : WalkState) : Prop where
  sound : Sound t listed (reads options visited) [] st.frame st
  walked : Walked options visited st.frame

theorem passing_concat_pos (passes : c.passes options = true) :
    passing options (visited ++ [c]) = passing options visited ++ [c] := by
  rw [passing, filter_append, filter_cons_of_pos passes, filter_nil, passing]

theorem passing_concat_neg (rejected : c.passes options = false) :
    passing options (visited ++ [c]) = passing options visited := by
  rw [passing, filter_append, filter_cons_of_neg (by rw [rejected]; nofun), filter_nil,
    append_nil, passing]

theorem reads_concat_pos (passes : c.passes options = true) :
    reads options (visited ++ [c]) = reads options visited ++ c.read options := by
  rw [reads, passing_concat_pos passes, flatMap_append, flatMap_singleton]
  rfl

theorem reads_concat_neg (rejected : c.passes options = false) :
    reads options (visited ++ [c]) = reads options visited := by
  rw [reads, passing_concat_neg rejected]
  rfl

theorem Progress.pass (progress : Progress t options listed visited st)
    (rejected : c.passes options = false) : Progress t options listed (visited ++ [c]) st := by
  obtain ⟨sound, seen, matched, summaries⟩ := progress
  refine ⟨by rwa [reads_concat_neg rejected], fun k mem => ?_, ?_, ?_⟩
  · obtain ⟨c, old, named⟩ := seen k mem
    exact ⟨c, mem_append_left _ old, named⟩
  · rwa [passing_concat_neg rejected]
  · rwa [passing_concat_neg rejected]

/-- The collection is seen and, if one name is asked for, the only match. Its items are not read
yet. -/
structure Pinned (options : ExtractOptions) (visited : List CollectionReplies)
    (c : CollectionReplies) (frame : Frame) : Prop where
  seen : ∀ k ∈ frame.seenContainers, ∃ d ∈ visited ++ [c], isSessionCollection d.path = false ∧ d.container? = some k
  matched : options.onlyContainer.isSome →
    (passing options visited).length + 1 = frame.matchedPaths.length ∧ frame.matchedPaths.length ≤ 1
  summaries : List.Forall₂ (Summarises options) (passing options visited) frame.collections

theorem Pinned.summarise (pinned : Pinned options visited c frame)
    (passes : c.passes options = true) {s : CollectionSummary}
    (summarises : Summarises options c s) :
    Walked options (visited ++ [c]) (frame.summarise s) := by
  refine ⟨pinned.seen, fun only => ?_, ?_⟩
  · rw [passing_concat_pos passes, length_append]
    exact pinned.matched only
  · rw [passing_concat_pos passes]
    exact forall₂_concat pinned.summaries summarises

theorem walkMatched_progress (labelled : c.label = .answered label)
    (passes : c.passes options = true) (sub : reads options (visited ++ [c]) ⊆ listed) :
    ⦃fun st => ⌜Sound t listed (reads options visited) [] st.frame st ∧ Pinned options visited c st.frame⌝⦄
    walkMatched t cipher options c label (containerOf c.path label)
    ⦃post⟨fun _ st => ⌜Progress t options listed (visited ++ [c]) st⌝, fun _ st => ⌜Safe listed st⌝⟩⦄ := by
  rw [reads_concat_pos passes] at sub
  refine Triple.iff.mpr fun st pre => ?_
  have matched := @walkMatched_spec t cipher options listed (reads options visited) st.frame c label labelled sub
  refine Triple.entails_wp_of_post
    (Q := post⟨fun _ st => ⌜Progress t options listed (visited ++ [c]) st⌝, fun _ st => ⌜Safe listed st⌝⟩) matched
    ⟨fun _ st' => ?_, ExceptConds.entails.refl _⟩ st pre.1
  rintro ⟨s, summarises, sound⟩
  have framed := sound.framed
  refine ⟨?_, framed ▸ pre.2.summarise passes summarises⟩
  rw [reads_concat_pos passes, framed]
  exact sound

theorem CollectionReplies.container?_eq (labelled : c.label = .answered label) :
    c.container? = some (containerOf c.path label) := by
  rw [container?, labelled]
  rfl

theorem CollectionReplies.passes_eq (labelled : c.label = .answered label)
    (lasting : ¬isSessionCollection c.path = true) :
    c.passes options = !options.onlyContainer.any (· != containerOf c.path label) := by
  rw [passes, container?_eq labelled, Bool.eq_false_iff.mpr lasting]
  cases options.onlyContainer with
  | none => rfl
  | some only => simp [bne]

/-- The state, with the name of the collection seen. -/
def WalkState.see (st : WalkState) (k : String) : WalkState :=
    { st with seenContainers := st.seenContainers ++ [k] }

theorem Walked.see (walked : Walked options visited st.frame) {k : String}
    (lasting : ¬isSessionCollection c.path = true) (named : c.container? = some k) :
    ∀ k' ∈ (st.see k).frame.seenContainers,
      ∃ d ∈ visited ++ [c], isSessionCollection d.path = false ∧ d.container? = some k' := by
  intro k' mem
  rcases mem_append.mp mem with mem | mem
  · obtain ⟨d, old, named⟩ := walked.seen k' mem
    exact ⟨d, mem_append_left _ old, named⟩
  · cases mem_singleton.mp mem
    exact ⟨c, mem_append_right _ mem_cons_self, Bool.eq_false_iff.mpr lasting, named⟩

/-- One collection: each way out of the source's loop body counts it as visited. -/
theorem walkCollection_spec (sub : reads options (visited ++ [c]) ⊆ listed) :
    ⦃fun st => ⌜Progress t options listed visited st⌝⦄
    walkCollection t cipher options c
    ⦃post⟨fun _ st => ⌜Progress t options listed (visited ++ [c]) st⌝, fun _ st => ⌜Safe listed st⌝⟩⦄ := by
  have matched := fun label labelled passes =>
    @walkMatched_progress t cipher options listed visited c label labelled passes sub
  mvcgen [walkCollection, pinMatched, matched]
  -- the in-memory collection
  case vc1 session st progress =>
    exact progress.pass (by rw [passes, session]; rfl)
  -- another name is asked for
  case vc2 lasting st progress _ _ label labelled _ _ other =>
    have labelled := call_eq_ok.mp labelled
    have rejected : c.passes options = false := by
      rw [passes_eq labelled lasting, other]
      rfl
    obtain ⟨sound, -, matched, summaries⟩ := progress.pass rejected
    exact ⟨⟨⟨sound.bounded, sound.counted, sound.backed⟩, sound.accounted, rfl⟩,
      progress.walked.see lasting (container?_eq labelled), matched, summaries⟩
  -- a second match
  case vc3 st progress _ _ _ _ _ _ _ _ _ _ =>
    have sound := progress.sound
    exact ⟨sound.bounded, sound.counted, sound.backed⟩
  -- the first match of the one name
  case vc4 labelled _ _ _ _ _ _ => exact call_eq_ok.mp labelled
  case vc5 lasting _ _ _ _ _ labelled _ _ same _ _ _ =>
    rw [passes_eq (call_eq_ok.mp labelled) lasting, Bool.eq_false_iff.mpr same]
    rfl
  case vc6 lasting st progress _ _ label labelled _ _ same _ first _ =>
    have labelled := call_eq_ok.mp labelled
    have none : st.matchedPaths = [] := head?_eq_none_iff.mp first
    obtain ⟨sound, walked⟩ := progress
    refine ⟨⟨⟨sound.bounded, sound.counted, sound.backed⟩, sound.accounted, rfl⟩,
      walked.see lasting (container?_eq labelled), fun only => ?_, walked.summaries⟩
    have count := (walked.matched only).1
    change _ + 1 = (st.matchedPaths ++ [c.path]).length ∧ (st.matchedPaths ++ [c.path]).length ≤ 1
    rw [count]
    change st.matchedPaths.length + 1 = _ ∧ _
    rw [none]
    exact ⟨rfl, le_rfl⟩
  -- every name is walked
  case vc7 labelled _ _ _ _ => exact call_eq_ok.mp labelled
  case vc8 lasting _ _ _ _ _ labelled _ _ same _ =>
    rw [passes_eq (call_eq_ok.mp labelled) lasting, Bool.eq_false_iff.mpr same]
    rfl
  case vc9 lasting st progress _ _ label labelled _ _ same all =>
    have labelled := call_eq_ok.mp labelled
    obtain ⟨sound, walked⟩ := progress
    exact ⟨⟨⟨sound.bounded, sound.counted, sound.backed⟩, sound.accounted, rfl⟩,
      walked.see lasting (container?_eq labelled), fun only => absurd only all, walked.summaries⟩
  case vc10 st progress _ _ _ _ => exact progress.sound.toSafe
  case vc11 st progress _ _ => exact progress.sound.toSafe

theorem reads_subset (visited rest : List CollectionReplies) :
    reads options visited ⊆ reads options (visited ++ rest) := by
  unfold reads passing
  rw [filter_append, flatMap_append]
  exact subset_append_left _ _

theorem walkAll_spec (rest : List CollectionReplies)
    (sub : reads options (visited ++ rest) ⊆ listed) :
    ⦃fun st => ⌜Progress t options listed visited st⌝⦄
    rest.forM (walkCollection t cipher options)
    ⦃post⟨fun _ st => ⌜Progress t options listed (visited ++ rest) st⌝, fun _ st => ⌜Safe listed st⌝⟩⦄ := by
  induction rest generalizing visited with
  | nil =>
    rw [append_nil]
    exact Triple.pure _ .rfl
  | cons c rest ih =>
    rw [append_cons] at sub ⊢
    have one := @walkCollection_spec t cipher options listed visited c (List.Subset.trans (reads_subset _ rest) sub)
    exact Triple.bind _ _ one fun _ => ih sub

/-! ## The whole extraction -/

/-- What a walk that succeeded has done. -/
structure Completes (t : Transport) (provider : Provider) (options : ExtractOptions)
    (out : Extraction) : Prop where
  sole : ∀ name, options.onlyContainer = some name → ∃ c, provider.walked options = [c] ∧ c.container? = some name
  summaries : List.Forall₂ (Summarises options) (provider.walked options) out.collections
  accounted : Accounted t (provider.listed options) [] out

theorem Walked.sole (walked : Walked options visited st.frame) {name : String}
    (only : options.onlyContainer = some name) (seen : name ∈ st.seenContainers) :
    ∃ c, passing options visited = [c] ∧ c.container? = some name := by
  obtain ⟨c, mem, lasting, named⟩ := walked.seen name seen
  have passes : c.passes options = true := by
    rw [passes, lasting, named, only]
    simp
  have chosen : c ∈ passing options visited := mem_filter.mpr ⟨mem, passes⟩
  obtain ⟨count, atMost⟩ := walked.matched (by rw [only]; rfl)
  obtain ⟨d, single⟩ := length_eq_one_iff.mp (Nat.le_antisymm (count ▸ atMost) (length_pos_of_mem chosen))
  rw [single, mem_singleton] at chosen
  exact ⟨d, single, chosen ▸ named⟩

theorem Progress.completes (progress : Progress t options (provider.listed options) visited st)
    (answered : provider.collections = .answered visited)
    (sole : ∀ name, options.onlyContainer = some name → name ∈ st.seenContainers)
    (unavailable : Bool) :
    Completes t provider options { st.out with itemTypeUnavailable := unavailable } := by
  have walked : provider.walked options = passing options visited := by
    rw [Provider.walked, answered]
    rfl
  have listed : provider.listed options = reads options visited := by
    rw [Provider.listed, walked]
    rfl
  obtain ⟨carried, refused, skipped, origins, perm⟩ := progress.sound.accounted
  refine ⟨fun name only => ?_, ?_, carried, refused, skipped, ⟨origins.items, origins.refused, origins.skipped⟩, ?_⟩
  · rw [walked]
    exact progress.walked.sole only (sole name only)
  · rw [walked]
    exact progress.walked.summaries
  · rw [listed]
    exact perm

theorem finish_spec (answered : provider.collections = .answered visited) :
    ⦃fun st => ⌜Progress t options (provider.listed options) visited st⌝⦄
    finish options
    ⦃post⟨fun out st => ⌜Safe (provider.listed options) st ∧ Completes t provider options out⌝,
      fun _ st => ⌜Safe (provider.listed options) st⌝⟩⦄ := by
  mvcgen [finish]
  case vc1 st progress only asked seen =>
    refine ⟨progress.sound.toSafe, progress.completes answered (fun name same => ?_) _⟩
    rw [asked] at same
    cases same
    exact contains_iff_mem.mp seen
  case vc2 st progress _ _ _ => exact progress.sound.toSafe
  case vc3 st progress all =>
    refine ⟨progress.sound.toSafe, progress.completes answered (fun name same => ?_) _⟩
    rw [all] at same
    cases same

theorem Safe.start (plainFallbackReason : Option String) :
    Safe listed { out := { plainFallbackReason } } :=
  ⟨Nat.zero_le _, Nat.zero_le _, fun _ none => absurd none not_mem_nil⟩

theorem Progress.start (plainFallbackReason : Option String) :
    Progress t options listed [] { out := { plainFallbackReason } } :=
  ⟨⟨.start plainFallbackReason, ⟨[], [], [], ⟨.nil, .nil, .nil⟩, .nil⟩, rfl⟩,
    fun _ none => absurd none not_mem_nil, fun _ => ⟨rfl, Nat.zero_le _⟩, .nil⟩

/-- **The walk**: even where it fails, it has asked only for secrets of listed items and kept within
the cap; where it returns, every listed item is accounted for. -/
theorem walk_spec : ⦃fun st => ⌜Progress t options (provider.listed options) [] st⌝⦄
    walk t cipher options provider
    ⦃post⟨fun out st => ⌜Safe (provider.listed options) st ∧ Completes t provider options out⌝,
      fun _ st => ⌜Safe (provider.listed options) st⌝⟩⦄ := by
  have all := fun (cs : List CollectionReplies) (answered : provider.collections = .answered cs) =>
    @walkAll_spec t cipher options (provider.listed options) [] cs
      (by rw [Provider.listed, Provider.walked, answered]; exact List.Subset.refl _)
  have last := fun cs answered => @finish_spec t options provider cs answered
  mvcgen [walk, all, last]
  case vc1 st progress _ _ _ => exact progress.sound.toSafe
  case vc2 answered _ => exact call_eq_ok.mp answered
  case vc6 answered _ _ =>
    intro _ _
    exact call_eq_ok.mp answered
  case vc7 st progress _ _ => exact progress.sound.toSafe

theorem extract_spec : ⦃fun st => ⌜st = {}⌝⦄
    extract t provider options
    ⦃post⟨fun out st => ⌜Safe (provider.listed options) st ∧ Completes t provider options out⌝,
      fun _ st => ⌜Safe (provider.listed options) st⌝⟩⦄ := by
  have walked := fun cipher => @walk_spec t cipher options provider
  mvcgen [extract, walked]
  case vc1 st start _ _ opened _ _ =>
    subst start
    exact Progress.start opened.2
  case vc2 st start _ _ _ _ =>
    subst start
    exact .start none
  case vc3 st start _ _ =>
    subst start
    exact .start none

theorem forall₂_mem {R : α → β → Prop} {as : List α} {bs : List β} (all : List.Forall₂ R as bs) :
    ∀ a ∈ as, ∃ b ∈ bs, R a b := by
  induction all with
  | nil => exact fun a none => absurd none not_mem_nil
  | cons first _ ih =>
    intro a mem
    rcases mem_cons.mp mem with rfl | mem
    · exact ⟨_, mem_cons_self, first⟩
    · obtain ⟨b, later, related⟩ := ih a mem
      exact ⟨b, mem_cons_of_mem _ later, related⟩

theorem eq_of_count_map_eq_one [DecidableEq β] {f : α → β} {l : List α} {x y : α} {b : β}
    (once : (l.map f).count b = 1) (hx : x ∈ l) (hy : y ∈ l) (fx : f x = b) (fy : f y = b) :
    x = y := by
  rw [count_eq_countP, countP_map, countP_eq_length_filter, length_eq_one_iff] at once
  obtain ⟨z, only⟩ := once
  have mem : ∀ w ∈ l, f w = b → w = z := fun w hw fw =>
    mem_singleton.mp (only ▸ mem_filter.mpr ⟨hw, beq_iff_eq.mpr fw⟩)
  rw [mem x hx fx, mem y hy fy]

theorem Completes.unanswerable (completes : Completes t provider options out) :
    ∀ c ∈ provider.walked options, c.opens options = false →
      ∃ s ∈ out.collections, s.path = c.path ∧ s.unanswerablePrompt = true := by
  intro c mem shut
  obtain ⟨s, reported, summarises⟩ := forall₂_mem completes.summaries c mem
  exact ⟨s, reported, summarises.path, by rw [summarises.unanswerable, shut]; rfl⟩

theorem Completes.carries (completes : Completes t provider options out)
    (sole : provider.walked options = [c]) : ∀ e ∈ out.items, ∃ x ∈ c.listing, Carries t x e := by
  intro e mem
  obtain ⟨carried, refused, skipped, origins, perm⟩ := completes.accounted
  obtain ⟨x, behind, carries⟩ := forall₂_mem origins.items.flip e mem
  have listed : x ∈ provider.listed options := by
    refine perm.subset ?_
    simp only [append_assoc]
    exact mem_append_left _ behind
  rw [Provider.listed, sole, flatMap_singleton, CollectionReplies.read] at listed
  split at listed
  · exact ⟨x, listed, carries⟩
  · cases listed

/-- The listings of the walk name this path once. -/
def Provider.ListedOnce (provider : Provider) (options : ExtractOptions) (p : String) : Prop :=
  ((provider.listed options).map fun x => x.item.path).count p = 1

/-- **The gnome-keyring walk.** Whatever the provider answers and however the extraction ends, it
holds no more secrets than the limit allows, and every path in a secret request was listed with
metadata that could be read and a type that unlocks nothing; if it is listed once, that is all that
was said of it. An extraction that succeeds has walked the one collection that matches a name that
was asked for, has reported every matching collection it could not open, and has put every listing
it read into exactly one of the three lists: a path is accounted for once exactly when it is listed
once. -/
theorem extract_accounts (t : Transport) (provider : Provider) (options : ExtractOptions)
    {result : Except GnomeError Extraction} (run : extraction t provider options = (result, st)) :
    st.held ≤ maxSecretBytes ∧ (∀ paths ∈ st.requests, ∀ p ∈ paths,
        (∃ x ∈ provider.listed options, x.item.path = p ∧ x.item.Known ∧ ¬x.item.UnlockCredential) ∧
          (provider.ListedOnce options p →
            ∀ x ∈ provider.listed options, x.item.path = p → x.item.Known ∧ ¬x.item.UnlockCredential)) ∧
      ∀ out, result = .ok out → (∀ name, options.onlyContainer = some name →
          ∃ c, provider.walked options = [c] ∧ c.container? = some name ∧
            ∀ e ∈ out.items, ∃ x ∈ c.listing, Carries t x e) ∧
        (∀ c ∈ provider.walked options, c.opens options = false →
          ∃ s ∈ out.collections, s.path = c.path ∧ s.unanswerablePrompt = true) ∧
        ∃ carried refused skipped, Origins t carried refused skipped out ∧
          (carried ++ refused ++ skipped).Perm (provider.listed options) ∧
          ∀ p, ((carried ++ refused ++ skipped).map fun x => x.item.path).count p = 1 ↔ provider.ListedOnce options p := by
  have post := Attempt.run_of_triple (@extract_spec t options provider) rfl run
  have safe : Safe (provider.listed options) st := by
    cases result with
    | ok out => exact post.1
    | error e => exact post
  refine ⟨safe.bounded, fun paths sent p named => ⟨safe.backed paths sent p named, fun once x listed same => ?_⟩, ?_⟩
  · obtain ⟨y, backing, path, known⟩ := safe.backed paths sent p named
    cases eq_of_count_map_eq_one once listed backing same path
    exact known
  · rintro out rfl
    have completes := post.2
    obtain ⟨carried, refused, skipped, origins, perm⟩ := completes.accounted
    rw [append_nil] at perm
    refine ⟨fun name only => ?_, completes.unanswerable, carried, refused, skipped, origins, perm, fun p => ?_⟩
    · obtain ⟨c, sole, named⟩ := completes.sole name only
      exact ⟨c, sole, named, completes.carries sole⟩
    · rw [Provider.ListedOnce, (perm.map _).count_eq]

/-- A peer that only offers plain sessions needs no cryptography. -/
def plainTransport : Transport :=
  { deriveAesKey := fun _ => .error "", decryptPadded := fun _ _ _ => none }

/-- An item of the login keyring that is answered about in full. -/
def loginItem (n type : String) : ItemReplies :=
  { path := "/org/freedesktop/secrets/collection/login/" ++ n, proxy := none, label := .answered "mail"
    attributes := .answered ∅, typeProxy := none, type := .answered type, created := .answered 1
    modified := .answered 2, secretProxy := none
    getSecret := .answered { parameters := [], value := utf8 "pw", contentType := "text/plain" }
    overdue := false }

def keyring (name : String) (items : List ItemReplies) : CollectionReplies :=
  { path := "/org/freedesktop/secrets/collection/" ++ name, proxy := none, label := .answered name
    locked := .answered false, created := .answered 0, modified := .answered 0
    unlock := { unlock := .elapsed, promptProxy := none, subscribe := .elapsed, prompt := .elapsed, completed := none }
    items := .answered items, getSecrets := .answered ∅ }

def keyrings (collections : List CollectionReplies) : Provider :=
  { service := none, openDh := .elapsed, openPlain := .answered (), collections := .answered collections }

/-- The login keyring lists an ordinary item, an unlock credential and an item that is not handed
over; there is another keyring beside it. -/
def mixedKeyrings : Provider :=
  keyrings
    [keyring "login"
        [loginItem "1" typeGeneric, loginItem "2" typeChainedKeyring, { loginItem "3" typeNote with getSecret := .elapsed }],
      keyring "work" [loginItem "1" typeGeneric]]

def onlyLogin : ExtractOptions := { preferDh := false, onlyContainer := some "login" }

theorem extract_accounts_mixed :
    ∃ out st, extraction plainTransport mixedKeyrings onlyLogin = (.ok out, st) ∧ st.held ≤ maxSecretBytes ∧
      (∀ x ∈ mixedKeyrings.listed onlyLogin, x.item.path = (loginItem "1" typeGeneric).path →
        x.item.Known ∧ ¬x.item.UnlockCredential) ∧
      (∃ c, mixedKeyrings.walked onlyLogin = [c] ∧ c.container? = some "login" ∧
        ∀ e ∈ out.items, ∃ x ∈ c.listing, Carries plainTransport x e) ∧
      (out.items.length, out.refused.length, out.skipped.length) = (1, 1, 1) ∧
      ∃ carried refused skipped, Origins plainTransport carried refused skipped out ∧
        ((carried ++ refused ++ skipped).map fun x => x.item.path).count (loginItem "1" typeGeneric).path = 1 := by
  have completes : (extraction plainTransport mixedKeyrings onlyLogin).1.toOption.any (fun out =>
      (out.items.length, out.refused.length, out.skipped.length) = (1, 1, 1)) = true := by
    decide
  have sent : [(loginItem "1" typeGeneric).path, (loginItem "3" typeNote).path] ∈
      (extraction plainTransport mixedKeyrings onlyLogin).2.requests := by
    decide
  have once : mixedKeyrings.ListedOnce onlyLogin (loginItem "1" typeGeneric).path := by
    unfold Provider.ListedOnce
    decide
  rcases run : extraction plainTransport mixedKeyrings onlyLogin with ⟨result, st⟩
  rw [run] at completes sent
  cases result with
  | error e => cases completes
  | ok out =>
    obtain ⟨held, requests, accounts⟩ := extract_accounts plainTransport mixedKeyrings onlyLogin run
    obtain ⟨sole, -, carried, refused, skipped, origins, -, count⟩ := accounts out rfl
    exact ⟨out, st, rfl, held, (requests _ sent _ mem_cons_self).2 once, sole "login" rfl, of_decide_eq_true completes,
      carried, refused, skipped, origins, (count _).mpr once⟩

/-- The login keyring lists one item twice: as an unlock credential, and then as an ordinary
item. -/
def doubledKeyring : Provider :=
  keyrings [keyring "login" [loginItem "1" typeChainedKeyring, loginItem "1" typeGeneric]]

/-- **A path that is listed twice** can be refused as an unlock credential and be fetched all the
same; it is then accounted for twice. -/
theorem extract_fetches_credential :
    ∃ out st, extraction plainTransport doubledKeyring onlyLogin = (.ok out, st) ∧
      [(loginItem "1" typeChainedKeyring).path] ∈ st.requests ∧
      (∃ x ∈ doubledKeyring.listed onlyLogin, x.item.path = (loginItem "1" typeChainedKeyring).path ∧
        x.item.UnlockCredential) ∧
      (out.items.length, out.refused.length, out.skipped.length) = (1, 1, 0) ∧
      ∀ carried refused skipped, Origins plainTransport carried refused skipped out →
        (carried ++ refused ++ skipped).Perm (doubledKeyring.listed onlyLogin) →
        ((carried ++ refused ++ skipped).map fun x => x.item.path).count (loginItem "1" typeChainedKeyring).path = 2 := by
  have completes : (extraction plainTransport doubledKeyring onlyLogin).1.toOption.any (fun out =>
      (out.items.length, out.refused.length, out.skipped.length) = (1, 1, 0)) = true := by
    decide
  have sent : [(loginItem "1" typeChainedKeyring).path] ∈
      (extraction plainTransport doubledKeyring onlyLogin).2.requests := by
    decide
  have twice : ((doubledKeyring.listed onlyLogin).map fun x => x.item.path).count
      (loginItem "1" typeChainedKeyring).path = 2 := by
    decide
  rcases run : extraction plainTransport doubledKeyring onlyLogin with ⟨result, st⟩
  rw [run] at completes sent
  cases result with
  | error e => cases completes
  | ok out =>
    refine ⟨out, st, rfl, sent, ⟨⟨_, loginItem "1" typeChainedKeyring⟩, .head _, rfl, _, rfl, by decide⟩,
      of_decide_eq_true completes, fun carried refused skipped _ perm => ?_⟩
    rw [(perm.map _).count_eq, twice]

end SecretManager.Import.Gnome
