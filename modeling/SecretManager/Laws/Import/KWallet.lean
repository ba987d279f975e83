import SecretManager.Laws.Import.QMap
import SecretManager.Import.KWallet
import SecretManager.Lib.Buckets
import SecretManager.Lib.Loop

/-!
# What the KWallet walk accounts for

The first pass is described by what it knows after some of the replies: which folders have a listing
that succeeded (`Folders`), which pairs were listed and how many compose each key (`Pairs`), and
which folders are counted as empty (`Empties`). A listing that succeeds adds the pairs that no
earlier listing held; whether it comes first or repeats a folder only decides where they are put
(`Added`).

The second pass puts every pair it visits into exactly one of the three lists (`Visited`).
-/

namespace SecretManager.Import.KWallet

open List SecretManager.Reference Reference ListState

/-- The folders that were listed so far, with the replies. -/
abbrev Replies := List (String × Except ReadError (List String))

/-- Some listing of the folder succeeded. -/
def Replies.Live (replies : Replies) (folder : String) : Prop := ∃ entries,
    (folder, .ok entries) ∈ replies

/-- Some listing of the folder that succeeded held the entry. -/
def Replies.Lists (replies : Replies) (folder entry : String) : Prop :=
  ∃ entries, (folder, .ok entries) ∈ replies ∧ entry ∈ entries

/-- The one listed pair that composes its key. -/
def Replies.Sole (replies : Replies) (f e : String) : Prop :=
  replies.Lists f e ∧ ∀ g d, replies.Lists g d → sidecarKey g d = sidecarKey f e → (g, d) = (f, e)

/-- The row of a listed pair: that of its key, when the pair is alone with it. -/
noncomputable def Replies.row (replies : Replies) (sidecar : Sidecar) (f e : String) :
    Option SidecarEntry :=
  haveI := Classical.propDecidable (replies.Sole f e)
  if replies.Sole f e then sidecar.get (sidecarKey f e) else none

/-- The folders the provider names, each with the reply to its listing. -/
def WalletReader.replies (reader : WalletReader) : Replies :=
  match reader.folderList with
  | .ok folders => reader.listingReplies folders
  | .error _ => []

variable {x : Externals} {json : JsonWriter} {reader : WalletReader} {wallet folder f e : String}
  {sidecar : Sidecar}
variable {replies : Replies} {st st' : ListState} {l : Listing} {entries distinct : List String}
  {i idx : Nat}
variable {claims : Claims} {p : String × String} {row : Option SidecarEntry} {code : Int32}
  {ty : EntryType}
variable {raw secret : Bytes} {out out' : Extraction} {err : ReadError}

theorem Replies.mem_ok {es : List String} : (f, .ok es) ∈ replies ++ [(folder, .ok entries)] ↔
    (f, .ok es) ∈ replies ∨ f = folder ∧ es = entries := by
  simp

theorem Replies.live_ok :
    Replies.Live (replies ++ [(folder, .ok entries)]) f ↔ replies.Live f ∨ f = folder := by
  simp only [Replies.Live, Replies.mem_ok, exists_or, exists_and_left, exists_eq, and_true]

theorem Replies.live_error :
    Replies.Live (replies ++ [(folder, .error err)]) f ↔ replies.Live f := by
  simp [Replies.Live]

theorem Replies.lists_ok :
    Replies.Lists (replies ++ [(folder, .ok entries)]) f e ↔ replies.Lists f e ∨ f = folder ∧ e ∈ entries := by
  simp only [Replies.Lists, Replies.mem_ok, or_and_right, exists_or, and_assoc, exists_and_left, exists_eq_left]

theorem Replies.lists_error :
    Replies.Lists (replies ++ [(folder, .error err)]) f e ↔ replies.Lists f e := by
  simp [Replies.Lists]

/-! ## Readable and unreadable folders -/

/-- A folder is live if one of its listings succeeded, and unreadable if it was met and none did. -/
structure Folders (replies : Replies) (st : ListState) : Prop where
  live : ∀ f, f ∈ st.liveFolders ↔ replies.Live f
  unreadable : ∀ f, f ∈ st.out.unreadableFolders ↔ f ∈ replies.map Prod.fst ∧ ¬replies.Live f
  nodup : st.out.unreadableFolders.Nodup

theorem ListState.meet_eq (st : ListState) (folder : String) : ∃ seen n,
    st.meet folder = { st with seenFolders := seen, out.duplicateFolders := n } := by
  unfold meet
  split
  · exact ⟨st.seenFolders, _, rfl⟩
  · exact ⟨_, st.out.duplicateFolders, rfl⟩

theorem ListState.failed_eq (st : ListState) (folder : String) (err : ReadError) :
    ∃ notes, st.failed folder err =
      { st with
        out.notes := notes
        out.unreadableFolders :=
          if folder ∈ st.liveFolders ∨ folder ∈ st.out.unreadableFolders then st.out.unreadableFolders
          else st.out.unreadableFolders ++ [folder] } := by
  unfold failed
  split
  next live => exact ⟨_, by rw [if_pos (.inl live)]⟩
  next dead =>
    split
    next known => exact ⟨st.out.notes, by rw [if_pos (.inr known)]⟩
    next new => exact ⟨_, by rw [if_neg (not_or.mpr ⟨dead, new⟩)]⟩

theorem Folders.failed (folders : Folders replies st) (err : ReadError)
    (live : st'.liveFolders = st.liveFolders)
    (unreadable : st'.out.unreadableFolders =
      if folder ∈ st.liveFolders ∨ folder ∈ st.out.unreadableFolders then st.out.unreadableFolders
      else st.out.unreadableFolders ++ [folder]) :
    Folders (replies ++ [(folder, .error err)]) st' := by
  refine ⟨fun f => ?_, fun f => ?_, ?_⟩
  · rw [live, folders.live, Replies.live_error]
  · rw [unreadable, Replies.live_error, map_append]
    split
    next known =>
      rw [folders.unreadable]
      simp only [map_cons, map_nil, mem_append, mem_singleton]
      constructor
      · rintro ⟨mem, dead⟩
        exact ⟨.inl mem, dead⟩
      · rintro ⟨mem | rfl, dead⟩
        · exact ⟨mem, dead⟩
        · rcases known with known | known
          · exact absurd ((folders.live _).mp known) dead
          · exact (folders.unreadable _).mp known
    next new =>
      simp only [map_cons, map_nil, mem_append, mem_singleton, folders.unreadable]
      constructor
      · rintro (⟨mem, dead⟩ | rfl)
        · exact ⟨.inl mem, dead⟩
        · exact ⟨.inr rfl, fun alive => new (.inl ((folders.live _).mpr alive))⟩
      · rintro ⟨mem | rfl, dead⟩
        · exact .inl ⟨mem, dead⟩
        · exact .inr rfl
  · rw [unreadable]
    split
    · exact folders.nodup
    next new => exact nodup_append_comm.mp (nodup_cons.mpr ⟨fun mem => new (.inr mem), folders.nodup⟩)

theorem Folders.redeemed (folders : Folders replies st) (entries : List String)
    (live : st'.liveFolders = insert folder st.liveFolders)
    (unreadable : st'.out.unreadableFolders = st.out.unreadableFolders.erase folder) :
    Folders (replies ++ [(folder, .ok entries)]) st' := by
  refine ⟨fun f => ?_, fun f => ?_, ?_⟩
  · rw [live, Finset.mem_insert, folders.live, Replies.live_ok, or_comm]
  · rw [unreadable, folders.nodup.mem_erase_iff, folders.unreadable, Replies.live_ok, map_append]
    simp only [map_cons, map_nil, mem_append, mem_singleton, not_or]
    constructor
    · rintro ⟨other, mem, dead⟩
      exact ⟨.inl mem, dead, other⟩
    · rintro ⟨mem | same, dead, other⟩
      · exact ⟨other, mem, dead⟩
      · exact absurd same other
  · rw [unreadable]
    exact folders.nodup.erase _

/-! ## The pairs that were listed -/

def ListState.pairs (st : ListState) : List (String × String) := st.listings.flatMap Listing.pairs

def keyOf (p : String × String) : String := sidecarKey p.1 p.2

/-- The pairs, after these replies: each listed pair once, and the claims count them. The index
finds the one listing of a folder. -/
structure Pairs (replies : Replies) (st : ListState) : Prop where
  nodup : st.pairs.Nodup
  mem : ∀ f e, (f, e) ∈ st.pairs ↔ replies.Lists f e
  claims : ∀ k, st.claims.getD k 0 = st.pairs.countP fun p => keyOf p = k
  indexed : ∀ f i, st.listingIndex[f]? = some i → ∃ l : Listing, st.listings[i]? = some l ∧ l.folder = f
  located : ∀ i (l : Listing), st.listings[i]? = some l → st.listingIndex[l.folder]? = some i
  filled : ∀ l ∈ st.listings, l.entries ≠ []

theorem Listing.mem_pairs : (f, e) ∈ l.pairs ↔ f = l.folder ∧ e ∈ l.entries := by
  constructor
  · intro mem
    obtain ⟨e', he, same⟩ := mem_map.mp mem
    cases same
    exact ⟨rfl, he⟩
  · rintro ⟨rfl, he⟩
    exact mem_map_of_mem he

theorem ListState.mem_pairs :
    (f, e) ∈ st.pairs ↔ ∃ l ∈ st.listings, f = l.folder ∧ e ∈ l.entries := by
  rw [ListState.pairs, mem_flatMap]
  exact exists_congr fun l => and_congr_right fun _ => Listing.mem_pairs

theorem Pairs.absent (pairs : Pairs replies st) (none : st.listingIndex[folder]? = none)
    (e : String) : (folder, e) ∉ st.pairs := by
  intro mem
  obtain ⟨l, hl, rfl, -⟩ := mem_pairs.mp mem
  obtain ⟨i, found⟩ := mem_iff_getElem?.mp hl
  rw [pairs.located i l found] at none
  cases none

theorem Pairs.of_listing (pairs : Pairs replies st) (found : st.listings[i]? = some l)
    (e : String) : (l.folder, e) ∈ st.pairs ↔ e ∈ l.entries := by
  constructor
  · intro mem
    obtain ⟨l', hl', same, he⟩ := mem_pairs.mp mem
    obtain ⟨i', found'⟩ := mem_iff_getElem?.mp hl'
    have one := pairs.located i l found
    have other := pairs.located i' l' found'
    rw [← same, one] at other
    cases other
    rw [found] at found'
    cases found'
    exact he
  · intro he
    exact mem_pairs.mpr ⟨l, mem_of_getElem? found, rfl, he⟩

theorem Pairs.present (pairs : Pairs replies st) (found : st.listingIndex[folder]? = some i) :
    ∃ e, (folder, e) ∈ st.pairs := by
  obtain ⟨l, at_, rfl⟩ := pairs.indexed folder i found
  obtain ⟨e, rest, he⟩ := exists_cons_of_ne_nil (pairs.filled l (mem_of_getElem? at_))
  exact ⟨e, (pairs.of_listing at_ e).mpr (by rw [he]; exact mem_cons_self)⟩

theorem getD_claim (claims : Claims) (f e k : String) :
    (claims.claim f e).getD k 0 = claims.getD k 0 + if sidecarKey f e = k then 1 else 0 := by
  unfold Claims.claim
  by_cases same : sidecarKey f e = k
  · subst same
    rw [Std.ExtTreeMap.getD_insert_self, if_pos rfl]
  · rw [Std.ExtTreeMap.getD_insert, if_neg same, if_neg (by simpa using same), Nat.add_zero]

theorem getD_foldl_claim (f : String) (es : List String) (claims : Claims) (k : String) :
    (es.foldl (fun claims e => claims.claim f e) claims).getD k 0 =
      claims.getD k 0 + (es.map fun e => (f, e)).countP fun p => keyOf p = k := by
  induction es generalizing claims with
  | nil => rfl
  | cons e es ih =>
    rw [foldl_cons, ih, getD_claim, Nat.add_right_comm, Nat.add_assoc]
    by_cases same : sidecarKey f e = k <;> simp [keyOf, same]

theorem Pairs.grow (pairs : Pairs replies st) {new : List String} (unique : new.Nodup)
    (fresh : ∀ e, e ∈ new ↔ e ∈ entries ∧ (folder, e) ∉ st.pairs)
    (perm : st'.pairs.Perm (st.pairs ++ new.map fun e => (folder, e)))
    (claims : st'.claims = new.foldl (fun claims e => claims.claim folder e) st.claims)
    (indexed : ∀ f i, st'.listingIndex[f]? = some i → ∃ l : Listing, st'.listings[i]? = some l ∧
      l.folder = f)
    (located : ∀ i (l : Listing), st'.listings[i]? = some l → st'.listingIndex[l.folder]? = some i)
    (filled : ∀ l ∈ st'.listings, l.entries ≠ []) :
    Pairs (replies ++ [(folder, .ok entries)]) st' := by
  refine ⟨?_, fun f e => ?_, fun k => ?_, indexed, located, filled⟩
  · rw [perm.nodup_iff, nodup_append]
    refine ⟨pairs.nodup, unique.map fun a b same => (Prod.mk.inj same).2, ?_⟩
    rintro p old _ added rfl
    obtain ⟨e, he, rfl⟩ := mem_map.mp added
    exact ((fresh e).mp he).2 old
  · rw [perm.mem_iff, mem_append, pairs.mem, Replies.lists_ok, mem_map]
    constructor
    · rintro (old | ⟨e', he, same⟩)
      · exact .inl old
      · cases same
        exact .inr ⟨rfl, ((fresh _).mp he).1⟩
    · rintro (old | ⟨rfl, he⟩)
      · exact .inl old
      · by_cases known : (f, e) ∈ st.pairs
        · exact .inl ((pairs.mem f e).mp known)
        · exact .inr ⟨e, (fresh e).mpr ⟨he, known⟩, rfl⟩
  · rw [claims, getD_foldl_claim, pairs.claims, perm.countP_eq, countP_append]

theorem Pairs.same (pairs : Pairs replies st) {replies' : Replies}
    (lists : ∀ f e, replies'.Lists f e ↔ replies.Lists f e) (listings : st'.listings = st.listings)
    (claims : st'.claims = st.claims) (index : st'.listingIndex = st.listingIndex) :
    Pairs replies' st' := by
  have eq : st'.pairs = st.pairs := by rw [ListState.pairs, ListState.pairs, listings]
  refine ⟨eq ▸ pairs.nodup, fun f e => ?_, fun k => ?_, ?_, ?_, listings ▸ pairs.filled⟩
  · rw [eq, pairs.mem, lists]
  · rw [eq, claims, pairs.claims]
  · rw [index, listings]
    exact pairs.indexed
  · rw [index, listings]
    exact pairs.located

/-! ## Putting the entries of a listing where they belong -/

theorem pairs_set_perm {listings : List Listing} (found : listings[i]? = some l)
    (new : List String) :
    ((listings.set i { l with entries := l.entries ++ new }).flatMap Listing.pairs).Perm
      (listings.flatMap Listing.pairs ++ new.map fun e => (l.folder, e)) := by
  induction listings generalizing i with
  | nil => cases found
  | cons head rest ih =>
    cases i with
    | zero =>
      cases found
      rw [set_cons_zero, flatMap_cons, flatMap_cons]
      change ((l.entries ++ new).map (fun e => (l.folder, e)) ++ _).Perm _
      rw [map_append, append_assoc, append_assoc]
      exact perm_append_comm.append_left _
    | succ i =>
      rw [set_cons_succ, flatMap_cons, flatMap_cons, append_assoc]
      exact (ih found).append_left _

theorem unite_foldlM : ∀ {st st' : ListState} {l : Listing},
    entries.Nodup → st.listings[idx]? = some l → entries.foldlM (unite folder idx) st = .ok st' →
    ∃ n, st' = { st with
      listed := n
      claims := (entries.filter (· ∉ l.entries)).foldl (fun claims e => claims.claim folder e) st.claims
      listings := st.listings.set idx { l with entries := l.entries ++ entries.filter (· ∉ l.entries) } } := by
  induction entries with
  | nil =>
    intro st st' l _ found run
    cases run
    refine ⟨st.listed, ?_⟩
    simp only [List.filter_nil, List.append_nil, List.foldl_nil]
    obtain ⟨lt, rfl⟩ := List.getElem?_eq_some_iff.mp found
    rw [List.set_getElem_self lt]
  | cons e entries ih =>
    intro st st' l nodup found run
    rw [nodup_cons] at nodup
    obtain ⟨st₁, first, rest⟩ := Loop.bind_eq_ok.mp run
    unfold unite at first
    rw [found] at first
    split at first
    next held =>
      cases first
      obtain ⟨n, rfl⟩ := ih nodup.2 found rest
      refine ⟨n, ?_⟩
      rw [filter_cons_of_neg (by simpa using held)]
    next new =>
      have missing : e ∉ l.entries := by simpa using new
      split at first
      · cases first
      · cases first
        have found₁ : (st.listings.modify idx fun l => { l with entries := l.entries ++ [e] })[idx]? =
            some { l with entries := l.entries ++ [e] } := by
          rw [getElem?_modify_eq, found]
          rfl
        obtain ⟨n, rfl⟩ := ih nodup.2 found₁ rest
        refine ⟨n, ?_⟩
        have kept : entries.filter (· ∉ l.entries ++ [e]) = entries.filter (· ∉ l.entries) := by
          refine filter_congr fun e' he' => ?_
          have other : e' ≠ e := fun same => nodup.1 (same ▸ he')
          simp [other]
        have updated : (st.listings.modify idx fun l => { l with entries := l.entries ++ [e] }).set idx
            { l with entries := l.entries ++ [e] ++ entries.filter (· ∉ l.entries) } =
            st.listings.set idx { l with entries := l.entries ++ (e :: entries.filter (· ∉ l.entries)) } := by
          rw [modify_eq_set_getElem?, found]
          simp
        rw [filter_cons_of_pos (by simpa using missing)]
        simp only [kept, updated, foldl_cons]

theorem Pairs.united (pairs : Pairs replies st) (found : st.listingIndex[folder]? = some idx)
    (nodup : distinct.Nodup) (same : ∀ e, e ∈ distinct ↔ e ∈ entries)
    (run : distinct.foldlM (unite folder idx) st = .ok st') :
    Pairs (replies ++ [(folder, .ok entries)]) st' ∧ st'.out = st.out ∧ st'.liveFolders = st.liveFolders ∧
      st'.countedEmpty = st.countedEmpty := by
  obtain ⟨l, here, rfl⟩ := pairs.indexed folder idx found
  obtain ⟨lt, -⟩ := List.getElem?_eq_some_iff.mp here
  obtain ⟨n, rfl⟩ := unite_foldlM nodup here run
  refine ⟨pairs.grow (nodup.filter _) (fun e => ?_) (pairs_set_perm here _) rfl ?_ ?_ ?_, rfl, rfl, rfl⟩
  · rw [mem_filter, same, pairs.of_listing here, decide_eq_true_eq]
  · intro f i at_
    obtain ⟨l', there, rfl⟩ := pairs.indexed f i at_
    by_cases own : i = idx
    · subst own
      rw [here] at there
      cases there
      exact ⟨_, getElem?_set_self lt, rfl⟩
    · exact ⟨l', by rw [getElem?_set_ne (Ne.symm own), there], rfl⟩
  · intro i l' there
    by_cases own : i = idx
    · subst own
      rw [getElem?_set_self lt] at there
      cases there
      exact found
    · rw [getElem?_set_ne (Ne.symm own)] at there
      exact pairs.located i l' there
  · intro l' mem
    rcases mem_or_eq_of_mem_set mem with mem | rfl
    · exact pairs.filled l' mem
    · exact append_ne_nil_of_left_ne_nil (pairs.filled l (mem_of_getElem? here)) _

theorem Pairs.begun (pairs : Pairs replies st) (absent : st.listingIndex[folder]? = none)
    (nodup : distinct.Nodup) (same : ∀ e, e ∈ distinct ↔ e ∈ entries) (filled : distinct ≠ [])
    (claims : st'.claims = distinct.foldl (fun claims e => claims.claim folder e) st.claims)
    (index : st'.listingIndex = st.listingIndex.insert folder st.listings.length)
    (listings : st'.listings = st.listings ++ [⟨folder, distinct⟩]) :
    Pairs (replies ++ [(folder, .ok entries)]) st' := by
  refine pairs.grow nodup (fun e => ?_) ?_ claims ?_ ?_ ?_
  · rw [same]
    exact ⟨fun mem => ⟨mem, pairs.absent absent e⟩, And.left⟩
  · rw [ListState.pairs, listings, flatMap_append, flatMap_singleton]
    exact .refl _
  · intro f i at_
    rw [index, Std.ExtTreeMap.getElem?_insert] at at_
    rw [listings]
    split at at_
    next own =>
      cases at_
      exact ⟨_, getElem?_concat_length, compare_eq_iff_eq.mp own⟩
    next =>
      obtain ⟨l, there, rfl⟩ := pairs.indexed f i at_
      exact ⟨l, by rw [List.getElem?_append_left (List.getElem?_eq_some_iff.mp there).1, there], rfl⟩
  · intro i l there
    rw [listings] at there
    rw [index, Std.ExtTreeMap.getElem?_insert]
    rcases Nat.lt_or_ge i st.listings.length with old | new
    · rw [List.getElem?_append_left old] at there
      have known := pairs.located i l there
      have other : folder ≠ l.folder := by
        rintro rfl
        rw [absent] at known
        cases known
      rw [if_neg (mt compare_eq_iff_eq.mp other), known]
    · have last : i = st.listings.length := by
        have := (List.getElem?_eq_some_iff.mp there).1
        rw [List.length_append, List.length_singleton] at this
        omega
      subst last
      rw [getElem?_concat_length] at there
      cases there
      rw [if_pos (compare_eq_iff_eq.mpr rfl)]
  · intro l mem
    rw [listings, mem_append, mem_singleton] at mem
    rcases mem with mem | rfl
    · exact pairs.filled l mem
    · exact filled

/-! ## Folders counted as empty -/

/-- The folders counted as empty, after these replies: listed, and never with an entry. -/
structure Empties (replies : Replies) (st : ListState) : Prop where
  mem : ∀ f, f ∈ st.countedEmpty ↔ replies.Live f ∧ ∀ e, ¬replies.Lists f e
  card : st.out.emptyFolders = st.countedEmpty.card

theorem Empties.listed (empties : Empties replies st)
    (own : folder ∈ st'.countedEmpty ↔ entries = [] ∧ ∀ e, ¬replies.Lists folder e)
    (others : ∀ f, f ≠ folder → (f ∈ st'.countedEmpty ↔ f ∈ st.countedEmpty))
    (card : st'.out.emptyFolders = st'.countedEmpty.card) :
    Empties (replies ++ [(folder, .ok entries)]) st' := by
  refine ⟨fun f => ?_, card⟩
  simp only [Replies.live_ok, Replies.lists_ok, not_or, not_and]
  by_cases same : f = folder
  · subst same
    rw [own]
    constructor
    · rintro ⟨rfl, never⟩
      exact ⟨.inr rfl, fun e => ⟨never e, fun _ => not_mem_nil⟩⟩
    · rintro ⟨-, never⟩
      exact ⟨eq_nil_iff_forall_not_mem.mpr fun e => (never e).2 rfl, fun e => (never e).1⟩
  · rw [others f same, empties.mem]
    constructor
    · rintro ⟨live, never⟩
      exact ⟨.inl live, fun e => ⟨never e, fun h => absurd h same⟩⟩
    · rintro ⟨live | h, never⟩
      · exact ⟨live, fun e => (never e).1⟩
      · exact absurd h same

theorem Empties.same (empties : Empties replies st) {replies' : Replies}
    (live : ∀ f, replies'.Live f ↔ replies.Live f)
    (lists : ∀ f e, replies'.Lists f e ↔ replies.Lists f e)
    (counted : st'.countedEmpty = st.countedEmpty)
    (count : st'.out.emptyFolders = st.out.emptyFolders) : Empties replies' st' := by
  refine ⟨fun f => ?_, by rw [count, counted, empties.card]⟩
  rw [counted, empties.mem, live]
  simp only [lists]

theorem ListState.noteEmpty_eq (st : ListState) (folder : String)
    (card : st.out.emptyFolders = st.countedEmpty.card) : st.noteEmpty folder =
      { st with
        countedEmpty := insert folder st.countedEmpty
        out.emptyFolders := (insert folder st.countedEmpty).card } := by
  unfold noteEmpty
  split
  next known => rw [Finset.insert_eq_of_mem known, ← card]
  next new => rw [Finset.card_insert_of_notMem new, card]

theorem ListState.begin_eq (card : st.out.emptyFolders = st.countedEmpty.card)
    (run : st.begin folder entries = .ok st') : ∃ n,
    st' =
      { st with
        listed := n
        claims := entries.foldl (fun claims entry => claims.claim folder entry) st.claims
        listingIndex := st.listingIndex.insert folder st.listings.length
        listings := st.listings ++ [⟨folder, entries⟩]
        countedEmpty := st.countedEmpty.erase folder
        out.emptyFolders := (st.countedEmpty.erase folder).card } := by
  unfold begin at run
  by_cases known : folder ∈ st.countedEmpty
  · simp only [if_pos known] at run
    split at run
    next => cases run
    next =>
      rw [Finset.card_erase_of_mem known, ← card]
      exact ⟨_, (Except.ok.inj run).symm⟩
  · simp only [if_neg known] at run
    split at run
    next => cases run
    next =>
      rw [Finset.erase_eq_of_notMem known, ← card]
      exact ⟨_, (Except.ok.inj run).symm⟩

/-! ## The first pass -/

/-- What the first pass knows after these replies. Nothing is read yet. -/
structure Listed (replies : Replies) (st : ListState) : Prop where
  folders : Folders replies st
  pairs : Pairs replies st
  empties : Empties replies st
  unread : st.out.items = [] ∧ st.out.refused = [] ∧ st.out.skipped = []

theorem Listed.failed (listed : Listed replies st) (folder : String) (err : ReadError) :
    Listed (replies ++ [(folder, .error err)]) ((st.meet folder).failed folder err) := by
  obtain ⟨seen, n, met⟩ := st.meet_eq folder
  obtain ⟨notes, failed⟩ := (st.meet folder).failed_eq folder err
  rw [failed, met]
  exact ⟨listed.folders.failed err rfl rfl, listed.pairs.same (fun _ _ => Replies.lists_error) rfl rfl rfl,
    listed.empties.same (fun _ => Replies.live_error) (fun _ _ => Replies.lists_error) rfl rfl, listed.unread⟩

theorem ListState.add_listed (run : st.add folder distinct = .ok st') (nodup : distinct.Nodup)
    (same : ∀ e, e ∈ distinct ↔ e ∈ entries) (pairs : Pairs replies st)
    (empties : Empties replies st) :
    Pairs (replies ++ [(folder, .ok entries)]) st' ∧ Empties (replies ++ [(folder, .ok entries)]) st' ∧
      st'.liveFolders = st.liveFolders ∧ ∃ n, st'.out = { st.out with emptyFolders := n } := by
  have nil_iff : distinct = [] ↔ entries = [] := by
    simp only [eq_nil_iff_forall_not_mem, same]
  unfold add at run
  split at run
  next idx found =>
    obtain ⟨united, out, live, counted⟩ := pairs.united found nodup same run
    obtain ⟨e, he⟩ := pairs.present found
    have known := (pairs.mem folder e).mp he
    refine ⟨united, empties.listed ?_ (fun f _ => by rw [counted]) (by rw [out, counted, empties.card]), live,
      st.out.emptyFolders, out⟩
    rw [counted, empties.mem]
    exact ⟨fun ⟨_, never⟩ => absurd known (never e), fun ⟨_, never⟩ => absurd known (never e)⟩
  next absent =>
    have never : ∀ e, ¬replies.Lists folder e := fun e known => pairs.absent absent e ((pairs.mem folder e).mpr known)
    split at run
    next empty =>
      obtain rfl := nil_iff.mp (isEmpty_iff.mp empty)
      rw [noteEmpty_eq st folder empties.card] at run
      cases run
      have lists : ∀ f e, Replies.Lists (replies ++ [(folder, .ok [])]) f e ↔ replies.Lists f e := fun f e => by
        simp [Replies.lists_ok]
      refine ⟨pairs.same lists rfl rfl rfl, empties.listed ?_ (fun f other => ?_) rfl, rfl, _, rfl⟩
      · exact ⟨fun _ => ⟨rfl, never⟩, fun _ => Finset.mem_insert_self _ _⟩
      · exact Finset.mem_insert.trans (or_iff_right other)
    next filled =>
      have filled : distinct ≠ [] := fun h => filled (isEmpty_iff.mpr h)
      obtain ⟨n, rfl⟩ := begin_eq empties.card run
      refine ⟨pairs.begun absent nodup same filled rfl rfl rfl, empties.listed ?_ (fun f other => ?_) rfl, rfl, _, rfl⟩
      · exact ⟨fun h => absurd h (Finset.notMem_erase _ _), fun h => absurd (nil_iff.mpr h.1) filled⟩
      · exact Finset.mem_erase.trans (and_iff_right other)

theorem Listed.list (listed : Listed replies st) {reply : Except ReadError (List String)}
    (run : st.list folder reply = .ok st') : Listed (replies ++ [(folder, reply)]) st' := by
  unfold ListState.list at run
  cases reply with
  | error err =>
    cases run
    exact listed.failed folder err
  | ok entries =>
    obtain ⟨seen, n, met⟩ := st.meet_eq folder
    simp only [met] at run
    obtain ⟨pairs, empties, live, m, out⟩ := add_listed run (eraseDups_nodup entries)
      (fun _ => mem_eraseDups) (listed.pairs.same (fun _ _ => Iff.rfl) rfl rfl rfl)
      (listed.empties.same (fun _ => Iff.rfl) (fun _ _ => Iff.rfl) rfl rfl)
    exact ⟨listed.folders.redeemed entries live (by rw [out]; rfl), pairs, empties, by rw [out]; exact listed.unread⟩

theorem listPass_listed (run : listPass sidecar replies = .ok st) : Listed replies st := by
  have start : Listed []
      { out :=
          { skippedSidecarRows := sidecar.skippedRows
            duplicateSidecarKeys := sidecar.duplicateKeys } } := by
    refine ⟨⟨?_, ?_, .nil⟩, ⟨.nil, ?_, ?_, ?_, ?_, ?_⟩, ⟨?_, rfl⟩, rfl, rfl, rfl⟩
    all_goals simp [Replies.Live, Replies.Lists, ListState.pairs]
  exact Loop.invariant (fun _ _ _ _ listed turn => listed.list turn) start run

/-! ## One entry -/

/-- What the folders of a wallet come to. -/
def Extraction.folders (out : Extraction) : Nat × List String :=
    (out.emptyFolders, out.unreadableFolders)

/-- The three lists an entry may end in. -/
abbrev Parts := List SourceItem × List RefusedEntry × List SkippedEntry

def Extraction.parts (out : Extraction) : Parts := (out.items, out.refused, out.skipped)

/-- The secret of an entry, by the replies alone. -/
def Yields (x : Externals) (json : JsonWriter) (reader : WalletReader) (p : String × String)
    (entryType : EntryType) (secret : Bytes) : Prop :=
  ∃ code, reader.entryType p.1 p.2 = .ok code ∧ EntryType.fromCode code = entryType ∧
    entryType ≠ .unknown ∧ (readSecret x json reader p.1 p.2 entryType {}).1 = .ok secret

/-- Nothing that the entry yields makes an item that fits the caps. -/
def Loses (x : Externals) (json : JsonWriter) (reader : WalletReader) (wallet : String)
    (row : Option SidecarEntry) (p : String × String) : Prop :=
  ∀ ty secret, Yields x json reader p ty secret → (mapEntry wallet p.1 p.2 ty secret row).1.capViolation ≠ none

theorem readMapBytes_eq (f e : String) (out : Extraction) : ∃ m,
    readMapBytes reader f e out = ((readMapBytes reader f e {}).1, { out with mapReadFallbacks := m }) := by
  simp only [readMapBytes, mapFallback]
  repeat' split
  all_goals exact ⟨_, rfl⟩

theorem readSecret_eq (f e : String) (ty : EntryType) (out : Extraction) : ∃ n m,
    readSecret x json reader f e ty out = ((readSecret x json reader f e ty {}).1,
      { out with passwordReadFallbacks := n, mapReadFallbacks := m }) := by
  cases ty with
  | password =>
    simp only [readSecret, readPasswordSecret, passwordFallback]
    repeat' split
    all_goals exact ⟨_, _, rfl⟩
  | map =>
    obtain ⟨m, eq⟩ := readMapBytes_eq f e out
    obtain ⟨m₀, eq₀⟩ := readMapBytes_eq f e {}
    simp only [readSecret]
    rw [eq, eq₀]
    cases (readMapBytes reader f e {}).1 with
    | error reason | ok raw => exact ⟨_, m, rfl⟩
  | stream | unknown | other =>
    simp only [readSecret]
    repeat' split
    all_goals exact ⟨_, _, rfl⟩

theorem mapEntry_provenance (f e : String) (ty : EntryType) (secret : Bytes)
    (row : Option SidecarEntry) :
    (mapEntry wallet f e ty secret row).1.provenance = .kwallet wallet f e := by
  simp only [mapEntry]

theorem mapEntry_secret (f e : String) (ty : EntryType) (secret : Bytes)
    (row : Option SidecarEntry) : (mapEntry wallet f e ty secret row).1.secret = secret := by
  simp only [mapEntry]

/-- An entry whose type is answered yields under that type and no other, and only what is read of
it. -/
theorem Yields.read (typed : reader.entryType p.1 p.2 = .ok code)
    (yields : Yields x json reader p ty secret) : ty = .fromCode code ∧ ty ≠ .unknown ∧
      (readSecret x json reader p.1 p.2 (.fromCode code) {}).1 = .ok secret := by
  obtain ⟨code', typed', rfl, known, read⟩ := yields
  rw [typed] at typed'
  cases typed'
  exact ⟨rfl, known, read⟩

theorem Yields.unique {ty' : EntryType} {secret' : Bytes}
    (yields : Yields x json reader p ty secret) (yields' : Yields x json reader p ty' secret') :
    ty = ty' ∧ secret = secret' := by
  have ⟨code, typed, _⟩ := yields
  obtain ⟨rfl, -, read⟩ := yields.read typed
  obtain ⟨rfl, -, read'⟩ := yields'.read typed
  rw [read] at read'
  exact ⟨rfl, Except.ok.inj read'⟩

/-- How a pair ends: in one of the three lists, and the others stay as they were. -/
inductive Ends (x : Externals) (json : JsonWriter) (reader : WalletReader) (wallet : String)
    (row : Option SidecarEntry) (p : String × String) : Parts → Parts → Prop where
  | item {items refused skipped} (ty : EntryType) (secret : Bytes)
      (yields : Yields x json reader p ty secret)
      (fits : (mapEntry wallet p.1 p.2 ty secret row).1.capViolation = none) :
      Ends x json reader wallet row p (items, refused, skipped)
        (items ++ [(mapEntry wallet p.1 p.2 ty secret row).1], refused, skipped)
  | refused {items refused skipped} (r : RefusedEntry) (named : r.provenance = .kwallet wallet p.1 p.2)
      (lost : Loses x json reader wallet row p) :
      Ends x json reader wallet row p (items, refused, skipped) (items, refused ++ [r], skipped)
  | skipped {items refused skipped} (s : SkippedEntry) (named : s.provenance = .kwallet wallet p.1 p.2)
      (lost : Loses x json reader wallet row p) :
      Ends x json reader wallet row p (items, refused, skipped) (items, refused, skipped ++ [s])

section

variable {st st' : ReadState}

theorem ReadState.keep_ends (yields : Yields x json reader p ty secret)
    (run : st.keep wallet p.1 p.2 ty secret row = .ok st') :
    Ends x json reader wallet row p st.out.parts st'.out.parts ∧ st'.out.folders = st.out.folders ∧
      st'.resolved = st.resolved := by
  unfold ReadState.keep at run
  split at run
  next => cases run
  next =>
    dsimp only at run
    split at run
    next refusal violates =>
      cases run
      refine ⟨.refused _ (mapEntry_provenance p.1 p.2 ty secret row) ?_, rfl, rfl⟩
      intro ty' secret' yields'
      obtain ⟨rfl, rfl⟩ := yields.unique yields'
      rw [violates]
      exact Option.some_ne_none _
    next fits =>
      cases run
      exact ⟨.item ty secret yields fits, rfl, rfl⟩

theorem ReadState.readTyped_ends (typed : reader.entryType p.1 p.2 = .ok code)
    (known : EntryType.fromCode code ≠ .unknown)
    (run : st.readTyped x json reader wallet p.1 p.2 (.fromCode code) row = .ok st') :
    Ends x json reader wallet row p st.out.parts st'.out.parts ∧ st'.out.folders = st.out.folders ∧
      st'.resolved = st.resolved := by
  obtain ⟨n, m, eq⟩ := @readSecret_eq x json reader p.1 p.2 (.fromCode code) st.out
  have lost {reason} (read : (readSecret x json reader p.1 p.2 (.fromCode code) {}).1 = .error reason) :
      Loses x json reader wallet row p := by
    intro ty secret yields
    have found := (yields.read typed).2.2
    rw [read] at found
    cases found
  unfold ReadState.readTyped at run
  rw [eq] at run
  dsimp only at run
  split at run
  next secret read =>
    obtain ⟨ends, folders, resolved⟩ := ReadState.keep_ends ⟨code, typed, rfl, known, read⟩ run
    exact ⟨ends, folders, resolved⟩
  next read =>
    cases run
    exact ⟨.refused _ rfl (lost read), rfl, rfl⟩
  next read =>
    cases run
    exact ⟨.skipped _ rfl (lost read), rfl, rfl⟩

theorem ReadState.resolve_eq (st : ReadState) (key : String) (row : Option SidecarEntry) :
    ∃ n, st.resolve key row =
      { st with
        resolved := if row.isSome then insert key st.resolved else st.resolved
        out.entriesWithoutSidecar := n } := by
  unfold ReadState.resolve
  split
  next => exact ⟨st.out.entriesWithoutSidecar, rfl⟩
  next => exact ⟨st.out.entriesWithoutSidecar + 1, rfl⟩

theorem ReadState.read_ends (run : st.read x json reader wallet sidecar claims p = .ok st') :
    Ends x json reader wallet (rowOf claims sidecar p.1 p.2) p st.out.parts st'.out.parts ∧
      st'.out.folders = st.out.folders ∧
      st'.resolved = if (rowOf claims sidecar p.1 p.2).isSome then insert (keyOf p) st.resolved else st.resolved := by
  obtain ⟨f, e⟩ := p
  obtain ⟨n, resolved⟩ := st.resolve_eq (sidecarKey f e) (rowOf claims sidecar f e)
  unfold ReadState.read at run
  simp only [resolved] at run
  split at run
  next untyped =>
    cases run
    refine ⟨.skipped _ rfl ?_, rfl, rfl⟩
    rintro ty secret ⟨code, typed, -⟩
    rw [typed] at untyped
    cases untyped
  next code typed =>
    split at run
    next unknown =>
      cases run
      refine ⟨.skipped _ rfl fun ty secret yields => ?_, rfl, rfl⟩
      obtain ⟨rfl, known, -⟩ := yields.read (p := (f, e)) typed
      exact absurd unknown known
    next known =>
      obtain ⟨ends, folders, resolved⟩ := ReadState.readTyped_ends (p := (f, e)) typed known run
      exact ⟨ends, folders, resolved⟩

end

/-! ## Sidecar rows -/

/-- **The claims find the pairs that are alone with their key.** -/
theorem Pairs.claimed_once (pairs : Pairs replies st) (listed : replies.Lists f e) :
    st.claims.getD (sidecarKey f e) 0 = 1 ↔ replies.Sole f e := by
  have own : (f, e) ∈ st.pairs.filter fun p => keyOf p = sidecarKey f e :=
    mem_filter.mpr ⟨(pairs.mem f e).mpr listed, decide_eq_true rfl⟩
  rw [pairs.claims, countP_eq_length_filter, length_eq_one_iff]
  constructor
  · rintro ⟨p, only⟩
    rw [only, mem_singleton] at own
    refine ⟨listed, fun g d other same => ?_⟩
    have mem : (g, d) ∈ st.pairs.filter fun p => keyOf p = sidecarKey f e :=
      mem_filter.mpr ⟨(pairs.mem g d).mpr other, decide_eq_true same⟩
    rw [only, mem_singleton] at mem
    rw [mem, own]
  · rintro ⟨-, alone⟩
    refine ⟨(f, e), perm_singleton.mp ?_⟩
    rw [perm_ext_iff_of_nodup (pairs.nodup.filter _) (nodup_singleton _)]
    rintro ⟨g, d⟩
    rw [mem_singleton]
    constructor
    · intro mem
      obtain ⟨held, same⟩ := mem_filter.mp mem
      exact alone g d ((pairs.mem g d).mp held) (of_decide_eq_true same)
    · intro same
      rw [same]
      exact own

theorem Pairs.row_eq (pairs : Pairs replies st) (sidecar : Sidecar) (listed : replies.Lists f e) :
    rowOf st.claims sidecar f e = replies.row sidecar f e := by
  unfold rowOf Replies.row
  by_cases sole : replies.Sole f e
  · rw [if_pos ((pairs.claimed_once listed).mpr sole), if_pos sole]
  · rw [if_neg (mt (pairs.claimed_once listed).mp sole), if_neg sole]

/-! ## The second pass -/

def Extraction.provenances (out : Extraction) : List Provenance :=
  out.items.map (·.provenance) ++ out.refused.map (·.provenance) ++ out.skipped.map (·.provenance)

/-- What the second pass knows after these pairs. -/
structure Accounted (x : Externals) (json : JsonWriter) (reader : WalletReader) (wallet : String)
    (sidecar : Sidecar) (claims : Claims)
    (folders : Nat × List String) (done : List (String × String)) (st : ReadState) : Prop where
  account : st.out.provenances.Perm (done.map fun p => .kwallet wallet p.1 p.2)
  items : ∀ item ∈ st.out.items, ∃ p ∈ done, ∃ ty secret, Yields x json reader p ty secret ∧
    item.capViolation = none ∧ item = (mapEntry wallet p.1 p.2 ty secret (rowOf claims sidecar p.1 p.2)).1
  kept : ∀ p ∈ done, ∀ ty secret, Yields x json reader p ty secret →
    (mapEntry wallet p.1 p.2 ty secret (rowOf claims sidecar p.1 p.2)).1.capViolation = none →
    (mapEntry wallet p.1 p.2 ty secret (rowOf claims sidecar p.1 p.2)).1 ∈ st.out.items
  folders : st.out.folders = folders
  resolved : ∀ k, k ∈ st.resolved ↔ ∃ p ∈ done, keyOf p = k ∧ (rowOf claims sidecar p.1 p.2).isSome

theorem concat_perm {α : Type} (a b : List α) (y : α) : (a ++ [y] ++ b).Perm (a ++ b ++ [y]) := by
  rw [append_assoc, append_assoc]
  exact perm_append_comm.append_left a

section

variable (ends : Ends x json reader wallet row p out.parts out'.parts)
include ends

theorem Ends.provenances :
    out'.provenances.Perm (out.provenances ++ [.kwallet wallet p.1 p.2]) := by
  obtain ⟨items, refused, skipped, _⟩ := out
  obtain ⟨items', refused', skipped', _⟩ := out'
  simp only [Extraction.parts] at ends
  simp only [Extraction.provenances]
  cases ends with
  | item ty secret yields fits =>
    rw [map_append, append_assoc _ _ (skipped.map _), append_assoc _ (refused.map _)]
    exact concat_perm _ _ _
  | refused r named _ =>
    rw [map_append, map_singleton, named, ← append_assoc]
    exact concat_perm _ _ _
  | skipped s named _ =>
    rw [map_append, map_singleton, named, ← append_assoc]

theorem Ends.items {item : SourceItem} (mem : item ∈ out'.items) :
    item ∈ out.items ∨ ∃ ty secret, Yields x json reader p ty secret ∧ item.capViolation = none ∧
      item = (mapEntry wallet p.1 p.2 ty secret row).1 := by
  obtain ⟨items, refused, skipped, _⟩ := out
  obtain ⟨items', refused', skipped', _⟩ := out'
  cases ends with
  | item ty secret yields fits =>
    rcases mem_append.mp mem with old | new
    · exact .inl old
    · obtain rfl := mem_singleton.mp new
      exact .inr ⟨ty, secret, yields, fits, rfl⟩
  | refused | skipped => exact .inl mem

theorem Ends.kept : out.items ⊆ out'.items ∧ ∀ ty secret, Yields x json reader p ty secret →
      (mapEntry wallet p.1 p.2 ty secret row).1.capViolation = none →
      (mapEntry wallet p.1 p.2 ty secret row).1 ∈ out'.items := by
  obtain ⟨items, refused, skipped, _⟩ := out
  obtain ⟨items', refused', skipped', _⟩ := out'
  cases ends with
  | item ty secret yields fits =>
    refine ⟨subset_append_left _ _, fun ty' secret' yields' _ => ?_⟩
    obtain ⟨rfl, rfl⟩ := yields.unique yields'
    exact mem_append_right _ mem_cons_self
  | refused _ _ lost | skipped _ _ lost =>
    exact ⟨List.Subset.refl _, fun ty secret yields fits => absurd fits (lost ty secret yields)⟩

end

theorem Accounted.read {folders : Nat × List String} {done : List (String × String)}
    {st st' : ReadState} (accounted : Accounted x json reader wallet sidecar claims folders done st)
    (run : st.read x json reader wallet sidecar claims p = .ok st') :
    Accounted x json reader wallet sidecar claims folders (done ++ [p]) st' := by
  obtain ⟨ends, same, resolved⟩ := ReadState.read_ends run
  refine ⟨?_, fun item mem => ?_, fun q visited ty secret yields fits => ?_,
    same.trans accounted.folders, fun k => ?_⟩
  · rw [map_append, map_singleton]
    exact ends.provenances.trans (accounted.account.append_right _)
  · rcases ends.items mem with old | ⟨ty, secret, yields, fits, rfl⟩
    · obtain ⟨q, visited, found⟩ := accounted.items item old
      exact ⟨q, mem_append_left [p] visited, found⟩
    · exact ⟨p, mem_append_right _ mem_cons_self, ty, secret, yields, fits, rfl⟩
  · rcases mem_append.mp visited with before | last
    · exact ends.kept.1 (accounted.kept q before ty secret yields fits)
    · obtain rfl := mem_singleton.mp last
      exact ends.kept.2 ty secret yields fits
  · have split : (∃ q ∈ done ++ [p], keyOf q = k ∧ (rowOf claims sidecar q.1 q.2).isSome) ↔
        k ∈ st.resolved ∨ keyOf p = k ∧ (rowOf claims sidecar p.1 p.2).isSome := by
      rw [accounted.resolved]
      simp only [mem_append, mem_singleton, or_and_right, exists_or, exists_eq_left]
    rw [split, resolved]
    by_cases applied : (rowOf claims sidecar p.1 p.2).isSome
    · rw [if_pos applied, Finset.mem_insert, and_iff_left applied, or_comm, eq_comm]
    · rw [if_neg applied, or_iff_left fun h => applied h.2]

theorem readPass_accounted {listed : ListState}
    (unread : listed.out.items = [] ∧ listed.out.refused = [] ∧ listed.out.skipped = [])
    {st : ReadState} (run : readPass x json reader wallet sidecar listed = .ok st) :
    Accounted x json reader wallet sidecar listed.claims listed.out.folders listed.pairs st := by
  have start : Accounted x json reader wallet sidecar listed.claims listed.out.folders []
      { out := { listed.out with ambiguousSidecarKeys := ambiguousKeys sidecar listed.claims } } := by
    refine ⟨?_, ?_, nofun, rfl, ?_⟩
    · simp [Extraction.provenances, unread]
    · simp [unread]
    · simp
  exact Loop.invariant (fun _ _ _ _ accounted turn => accounted.read turn) start run

/-! ## The walk -/

theorem walk_passes (run : walk x json reader wallet sidecar = .ok out) :
    ∃ listed read, Listed reader.replies listed ∧
      Accounted x json reader wallet sidecar listed.claims listed.out.folders listed.pairs read ∧
      out = { read.out with
        unresolvedSidecarRows := sidecar.entries.keys.filter fun key => decide (key ∉ read.resolved) } := by
  obtain ⟨folders, named, run⟩ := Loop.bind_eq_ok.mp run
  obtain ⟨listed, first, run⟩ := Loop.bind_eq_ok.mp run
  obtain ⟨read, second, run⟩ := Loop.bind_eq_ok.mp run
  cases run
  have replies : reader.replies = reader.listingReplies folders := by
    unfold WalletReader.replies
    cases h : reader.folderList with
    | error e =>
      rw [h] at named
      cases named
    | ok fs =>
      rw [h] at named
      cases named
      rfl
  have known := listPass_listed first
  rw [← replies] at known
  exact ⟨listed, read, known, readPass_accounted known.unread second, rfl⟩

/-- **Every listed pair is accounted for once.** A completed walk puts each pair that some listing
held into one of the three lists, and nothing else. A folder is counted as empty when a listing of
it succeeded and none that did held an entry, and is unreadable when none did. An item has the row
of its key when no other listed pair composes that key, and none otherwise; the rows that no pair is
alone with stay unresolved. -/
theorem walk_accounts (run : walk x json reader wallet sidecar = .ok out) :
    (∃ pairs : List (String × String), pairs.Nodup ∧ (∀ f e, (f, e) ∈ pairs ↔ reader.replies.Lists f e) ∧
      out.provenances.Perm (pairs.map fun p => .kwallet wallet p.1 p.2)) ∧
    (∃ empty : Finset String, out.emptyFolders = empty.card ∧ ∀ f, f ∈ empty ↔
      (∃ entries, (f, .ok entries) ∈ reader.replies) ∧ ∀ entries, (f, .ok entries) ∈ reader.replies → entries = []) ∧
    (out.unreadableFolders.Nodup ∧ ∀ f, f ∈ out.unreadableFolders ↔
      f ∈ reader.replies.map Prod.fst ∧ ¬∃ entries, (f, .ok entries) ∈ reader.replies) ∧
    (∀ item ∈ out.items, ∃ f e ty secret, reader.replies.Lists f e ∧ Yields x json reader (f, e) ty secret ∧
      item = (mapEntry wallet f e ty secret (reader.replies.row sidecar f e)).1) ∧
    (∀ k, k ∈ out.unresolvedSidecarRows ↔
      (sidecar.get k).isSome ∧ ¬∃ f e, sidecarKey f e = k ∧ reader.replies.Sole f e) := by
  obtain ⟨listed, read, first, second, rfl⟩ := walk_passes run
  have pairs := first.pairs
  have folders := second.folders
  refine ⟨⟨listed.pairs, pairs.nodup, pairs.mem, second.account⟩, ⟨listed.countedEmpty, ?_, fun f => ?_⟩,
    ⟨?_, fun f => ?_⟩, fun item mem => ?_, fun k => ?_⟩
  · exact (Prod.mk.inj folders).1.trans first.empties.card
  · rw [first.empties.mem]
    refine and_congr_right fun _ => ⟨fun never entries mem => ?_, fun empty e => ?_⟩
    · exact eq_nil_iff_forall_not_mem.mpr fun e he => never e ⟨entries, mem, he⟩
    · rintro ⟨entries, mem, he⟩
      rw [empty entries mem] at he
      cases he
  · exact (Prod.mk.inj folders).2 ▸ first.folders.nodup
  · exact (Prod.mk.inj folders).2 ▸ first.folders.unreadable f
  · obtain ⟨⟨f, e⟩, visited, ty, secret, yields, -, rfl⟩ := second.items item mem
    have held := (pairs.mem f e).mp visited
    exact ⟨f, e, ty, secret, held, yields, by rw [pairs.row_eq sidecar held]⟩
  · rw [mem_filter, Std.ExtTreeMap.mem_keys, decide_eq_true_eq, second.resolved, Sidecar.get,
      Std.ExtTreeMap.isSome_getElem?_iff_mem]
    refine and_congr_right fun mem => not_congr ⟨?_, ?_⟩
    · rintro ⟨⟨f, e⟩, visited, same, applied⟩
      refine ⟨f, e, same, Classical.byContradiction fun shared => ?_⟩
      rw [pairs.row_eq sidecar ((pairs.mem f e).mp visited), Replies.row, if_neg shared] at applied
      cases applied
    · rintro ⟨f, e, rfl, sole⟩
      refine ⟨(f, e), (pairs.mem f e).mpr sole.1, rfl, ?_⟩
      rw [pairs.row_eq sidecar sole.1, Replies.row, if_pos sole, Sidecar.get, Std.ExtTreeMap.isSome_getElem?_iff_mem]
      exact mem

namespace Reference

/-- A wallet whose first folder is listed twice, once in vain, and composes a key together with the
second; a third folder cannot be listed and the last is empty. -/
def doubled : WalletReader where
  folderList := .ok ["a", "a/b", "a", "gone", "bare"]
  entryList n folder :=
    if folder = "a" then if n = 0 then .ok ["b/c", "d"] else .error (.timedOut "entryList")
    else if folder = "a/b" then .ok ["c", "c"]
    else if folder = "bare" then .ok []
    else .error (.failed "no such folder")
  entryType _ _ := .ok 1
  readPassword _ entry := .ok entry
  readMap _ _ := .ok []
  readEntry _ _ := .ok []

def rows : Sidecar :=
  { entries := (∅ : Std.ExtTreeMap String SidecarEntry).insert "a/d" { contentType := some "text/html" } |>.insert
      "a/b/c" {} }

/-- The walk of a wallet of this name. -/
abbrev walked (reader : WalletReader) (sidecar : Sidecar) : Except KWalletError Extraction :=
  walk hashing Reference.json reader "kdewallet" sidecar

/-- A wallet with one password that `readPassword` does not give, stored as this blob. -/
def blob (raw : Bytes) : WalletReader where
  folderList := .ok ["Passwords"]
  entryList _ _ := .ok ["mail"]
  entryType _ _ := .ok 1
  readPassword _ _ := .error (.failed "no password")
  readMap _ _ := .ok []
  readEntry _ _ := .ok raw

end Reference

theorem walk_accounts_doubled : ∃ out, walked doubled rows = .ok out ∧
    ∃ pairs : List (String × String), pairs.Nodup ∧ (∀ f e, (f, e) ∈ pairs ↔ doubled.replies.Lists f e) ∧
      out.provenances.Perm (pairs.map fun p => .kwallet "kdewallet" p.1 p.2) := by
  have completes : (walked doubled rows).toOption.isSome := by
    decide
  cases run : walked doubled rows with
  | error e =>
    rw [run] at completes
    cases completes
  | ok out => exact ⟨out, rfl, (walk_accounts run).1⟩

/-! ## Empty secrets -/

/-- The reply to `readPassword` is not a password, and the serialised text is null or empty. -/
def EmptyPassword (reader : WalletReader) (f e : String) : Prop :=
  reader.entryType f e = .ok 1 ∧ (∀ s, reader.readPassword f e = .ok s → s = "") ∧
    (reader.readEntry f e = .ok [0, 0, 0, 0] ∨ reader.readEntry f e = .ok [255, 255, 255, 255])

theorem utf8_eq_nil {s : String} : utf8 s = [] ↔ s = "" :=
  ⟨fun h => utf8_inj h, fun h => by rw [h]; rfl⟩

theorem QString.text_eq_empty :
    (∃ q : QString, q.text = "" ∧ raw = q.encode) ↔ raw = [0, 0, 0, 0] ∨ raw = [255, 255, 255, 255] := by
  constructor
  · rintro ⟨⟨value, fits⟩, empty, rfl⟩
    cases value with
    | none => exact .inr rfl
    | some s =>
      obtain rfl : s = "" := empty
      exact .inl rfl
  · rintro (rfl | rfl)
    · exact ⟨⟨some "", fun s h => by cases h; decide⟩, rfl, by decide⟩
    · exact ⟨⟨none, by simp⟩, rfl, by decide⟩

theorem decodeQstringPassword_nil :
    decodeQstringPassword raw = .ok [] ↔ raw = [0, 0, 0, 0] ∨ raw = [255, 255, 255, 255] := by
  rw [← QString.text_eq_empty]
  unfold decodeQstringPassword
  constructor
  · intro decoded
    cases read : exactly (qstring "password") raw with
    | error err =>
      rw [read] at decoded
      cases decoded
    | ok found =>
      obtain ⟨q, rfl, rfl⟩ := (exactly_eq_ok (reads_qstring "password")).mp read
      rw [read] at decoded
      exact ⟨q, utf8_eq_nil.mp (Except.ok.inj decoded), rfl⟩
  · rintro ⟨q, empty, rfl⟩
    have read := (exactly_eq_ok (reads_qstring "password")).mpr ⟨q, rfl, rfl⟩
    rw [read]
    exact congrArg Except.ok (utf8_eq_nil.mpr empty)

theorem passwordFallback_nil (first : String) : (passwordFallback reader f e {} first).1 = .ok [] ↔
      reader.readEntry f e = .ok [0, 0, 0, 0] ∨ reader.readEntry f e = .ok [255, 255, 255, 255] := by
  unfold passwordFallback
  cases reader.readEntry f e with
  | error second => exact ⟨nofun, nofun⟩
  | ok raw =>
    rw [Except.ok.injEq, Except.ok.injEq, ← decodeQstringPassword_nil]
    dsimp only
    split
    next empty =>
      obtain rfl := isEmpty_iff.mp empty
      exact ⟨nofun, fun decoded => by rcases decodeQstringPassword_nil.mp decoded with h | h <;> cases h⟩
    next =>
      cases decodeQstringPassword raw with
      | error err => exact ⟨nofun, nofun⟩
      | ok recovered => simp

theorem readPasswordSecret_nil :
    (readPasswordSecret reader f e {}).1 = .ok [] ↔ (∀ s, reader.readPassword f e = .ok s → s = "") ∧
      (reader.readEntry f e = .ok [0, 0, 0, 0] ∨ reader.readEntry f e = .ok [255, 255, 255, 255]) := by
  unfold readPasswordSecret
  cases reader.readPassword f e with
  | error err => exact (passwordFallback_nil _).trans (and_iff_right nofun).symm
  | ok s =>
    dsimp only
    split
    next empty =>
      refine (passwordFallback_nil _).trans (and_iff_right fun t h => ?_).symm
      cases h
      exact String.isEmpty_iff.mp empty
    next filled =>
      refine ⟨fun h => ?_, fun h => ?_⟩
      · exact absurd (String.isEmpty_iff.mpr (utf8_eq_nil.mp (Except.ok.inj h))) filled
      · exact absurd (String.isEmpty_iff.mpr (h.1 s rfl)) filled

theorem readMapSecret_ne_nil (filled : ∀ members, json.object members ≠ [])
    (read : readMapSecret x json raw = .ok secret) : secret ≠ [] := by
  obtain ⟨pairs, -, written⟩ := Loop.bind_eq_ok.mp read
  unfold qmapToCanonicalJson at written
  split at written
  next => cases written
  next =>
    cases written
    exact filled _

theorem EntryType.fromCode_password : EntryType.fromCode code = .password ↔ code = 1 := by
  unfold EntryType.fromCode
  split
  next zero => exact ⟨nofun, fun one => by rw [one] at zero; exact absurd zero (by decide)⟩
  next =>
    split
    next one => exact ⟨fun _ => one, fun _ => rfl⟩
    next other =>
      refine ⟨fun h => ?_, fun one => absurd one other⟩
      split at h
      · cases h
      · split at h <;> cases h

/-- The entries whose read gives an empty secret. -/
theorem yields_nil (filled : ∀ members, json.object members ≠ []) :
    Yields x json reader (f, e) ty [] ↔ ty = .password ∧ EmptyPassword reader f e := by
  constructor
  · rintro ⟨code, typed, kind, -, read⟩
    cases ty with
    | password =>
      obtain rfl := EntryType.fromCode_password.mp kind
      exact ⟨rfl, typed, readPasswordSecret_nil.mp read⟩
    | map =>
      exfalso
      simp only [readSecret] at read
      split at read
      next => cases read
      next raw _ _ =>
        cases decoded : readMapSecret x json raw with
        | error err =>
          rw [decoded] at read
          cases read
        | ok secret =>
          rw [decoded] at read
          exact readMapSecret_ne_nil filled decoded (Except.ok.inj read)
    | stream | unknown | other =>
      exfalso
      simp only [readSecret] at read
      split at read
      next => cases read
      next raw _ =>
        split at read
        next => cases read
        next filled => exact filled (isEmpty_iff.mpr (Except.ok.inj read))
  · rintro ⟨rfl, typed, unread, blob⟩
    exact ⟨1, typed, rfl, nofun, readPasswordSecret_nil.mpr ⟨unread, blob⟩⟩

theorem Provenance.kwallet_inj {g d : String}
    (same : Provenance.kwallet wallet f e = .kwallet wallet g d) : f = g ∧ e = d := by
  cases same
  exact ⟨rfl, rfl⟩

/-- **An entry that yields no bytes is not imported**, unless its serialised password is the empty
text and the item made of it fits the caps: of these entries, and of no others, an item without a
secret is imported. The items of another entry have secrets, and one that yields no bytes is refused
or skipped. Of the JSON only that it is never empty is used. -/
theorem walk_secret_filled (filled : ∀ members, json.object members ≠ [])
    (run : walk x json reader wallet sidecar = .ok out) (listed : reader.replies.Lists f e) :
    ((∀ item ∈ out.items, item.provenance = .kwallet wallet f e → item.secret ≠ []) ∧
      ((∀ ty secret, Yields x json reader (f, e) ty secret → secret = []) →
        .kwallet wallet f e ∈ out.refused.map (·.provenance) ∨
        .kwallet wallet f e ∈ out.skipped.map (·.provenance))) ↔
    ¬(EmptyPassword reader f e ∧
      (mapEntry wallet f e .password [] (reader.replies.row sidecar f e)).1.capViolation = none) := by
  obtain ⟨known, read, first, second, rfl⟩ := walk_passes run
  have row := first.pairs.row_eq sidecar listed
  have visited := (first.pairs.mem f e).mpr listed
  have source : ∀ item ∈ read.out.items, item.provenance = .kwallet wallet f e → ∃ ty,
      Yields x json reader (f, e) ty item.secret ∧ item.capViolation = none ∧
        item = (mapEntry wallet f e ty item.secret (reader.replies.row sidecar f e)).1 := by
    intro item mem named
    obtain ⟨⟨g, d⟩, -, ty, secret, yields, fits, rfl⟩ := second.items item mem
    obtain ⟨rfl, rfl⟩ := Provenance.kwallet_inj named
    rw [mapEntry_secret]
    exact ⟨ty, yields, fits, by rw [row]⟩
  constructor
  · rintro ⟨secrets, -⟩ ⟨blob, fits⟩
    have yields := (yields_nil (x := x) filled).mpr ⟨rfl, blob⟩
    rw [← row] at fits
    exact secrets _ (second.kept (f, e) visited _ _ yields fits) (mapEntry_provenance ..)
      (mapEntry_secret ..)
  · intro written
    have secrets : ∀ item ∈ read.out.items, item.provenance = .kwallet wallet f e → item.secret ≠ [] := by
      intro item mem named empty
      obtain ⟨ty, yields, fits, made⟩ := source item mem named
      rw [empty] at yields made
      obtain ⟨password, blob⟩ := (yields_nil filled).mp yields
      rw [made, password] at fits
      exact written ⟨blob, fits⟩
    refine ⟨secrets, fun none => ?_⟩
    have accounted : .kwallet wallet f e ∈ read.out.provenances :=
      second.account.mem_iff.mpr (mem_map_of_mem visited)
    rw [Extraction.provenances, append_assoc, mem_append] at accounted
    rcases accounted with imported | rest
    · obtain ⟨item, mem, named⟩ := mem_map.mp imported
      obtain ⟨ty, yields, -⟩ := source item mem named
      exact absurd (none ty item.secret yields) (secrets item mem named)
    · exact mem_append.mp rest

/-- The serialised empty text is not empty, and the item that is made of it is. -/
theorem walk_imports_empty_secret : (walked (blob [0, 0, 0, 0]) {}).toOption.map
      (fun out => out.items.map fun item => (item.provenance, item.secret)) =
        some [(.kwallet "kdewallet" "Passwords" "mail", [])] := by
  decide

theorem walk_secret_filled_blob : ∃ out,
    walked (blob [0, 0, 0, 2, 0, 112]) {} = .ok out ∧
      ∀ item ∈ out.items, item.provenance = .kwallet "kdewallet" "Passwords" "mail" → item.secret ≠ [] := by
  have completes : (walked (blob [0, 0, 0, 2, 0, 112]) {}).toOption.isSome := by
    decide
  cases run : walked (blob [0, 0, 0, 2, 0, 112]) {} with
  | error err =>
    rw [run] at completes
    cases completes
  | ok out =>
    have iff := walk_secret_filled json_lawful.filled run
      (f := "Passwords") (e := "mail") ⟨["mail"], mem_cons_self, mem_cons_self⟩
    refine ⟨out, rfl, (iff.mpr ?_).1⟩
    rintro ⟨⟨-, -, h | h⟩, -⟩
    · cases h
    · cases h

end SecretManager.Import.KWallet
