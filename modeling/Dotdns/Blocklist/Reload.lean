import Dotdns.Blocklist.Engine

/-!
# Blocklist — downloads and reloads

`RemoteBlocklists::refresh` stages every download in a temporary file and
renames them all at the end; `ReloadableBlocklist` refreshes its two
remote lists and then builds a new engine from every file, local and
downloaded. An error on the way returns early: the disk keeps what was
already written and the engine keeps its old rules.

What the file system and the network answer is the `RefreshIo` argument.
The headline is about a cold start, where the old rules are no rules.
-/

namespace Dotdns

open Lib

/-! ## Files -/

/-- `PathBuf::join`. -/
def Path.join (base name : Path) : Path :=
  if name.head? = some '/' then name
  else if base = [] then name
  else if base.getLast? = some '/' then base ++ name
  else base ++ '/' :: name

/-- `{idx:04}`. -/
def pad4 (idx : Nat) : Str :=
  let digits := Nat.toDigits 10 idx
  List.replicate (4 - digits.length) '0' ++ digits

/-- One file is written, or removed. -/
def Disk.set (disk : Disk) (p : Path) (content : Option Str) : Disk :=
  fun q => if q = p then content else disk q

@[simp] theorem Disk.set_self (disk : Disk) (p : Path) (content : Option Str) :
    disk.set p content p = content := if_pos rfl

theorem Disk.set_of_ne {disk : Disk} {p q : Path} (h : q ≠ p) (content : Option Str) :
    disk.set p content q = disk q := if_neg h

/-- `RemoteBlocklists`: the subscriptions of one kind. -/
structure RemoteBlocklists where
  urls : List Str
  downloadDir : Path
  timeout : Nat
  filePrefix : Str
  deriving DecidableEq, Repr

/-- What the environment answers during one refresh. `fetch idx` is the
body of download `idx` as text, `none` for any error of the request, its
status or its body; a failed write leaves the given content behind. -/
structure RefreshIo where
  createDir : Bool := true
  buildClient : Bool := true
  fetch : Nat → Option Str
  write : Path → Except (Option Str) Unit := fun _ => .ok ()
  rename : Path → Bool := fun _ => true

namespace RemoteBlocklists

/-- The file of download `idx` with the given extension. -/
def fileFor (r : RemoteBlocklists) (extension : Str) (idx : Nat) : Path :=
  r.downloadDir.join (r.filePrefix ++ '-' :: (pad4 idx ++ '.' :: extension))

/-- `path_for`. -/
def pathFor (r : RemoteBlocklists) (idx : Nat) : Path := r.fileFor ['t', 'x', 't'] idx

/-- `path_for(idx).with_extension("tmp")`. -/
def tmpPathFor (r : RemoteBlocklists) (idx : Nat) : Path := r.fileFor ['t', 'm', 'p'] idx

/-- `RemoteBlocklists::paths`, whether or not the files are there. -/
def paths (r : RemoteBlocklists) : List Path := (List.range r.urls.length).map r.pathFor

/-- The download loop from index `idx`: fetch, stage in a temporary file. -/
def stage (r : RemoteBlocklists) (io : RefreshIo) :
    List Str → Nat → Disk → Except BlocklistError (List Nat) × Disk
  | [], _, disk => (.ok [], disk)
  | url :: urls, idx, disk =>
      match io.fetch idx with
      | none => (.error (.download url), disk)
      | some body =>
          match io.write (r.tmpPathFor idx) with
          | .error left => (.error (.io (r.tmpPathFor idx)), disk.set (r.tmpPathFor idx) left)
          | .ok () =>
              match stage r io urls (idx + 1) (disk.set (r.tmpPathFor idx) (some body)) with
              | (.error e, disk) => (.error e, disk)
              | (.ok staged, disk) => (.ok (idx :: staged), disk)

/-- The rename loop over the staged indices; a rename needs its source. -/
def renameAll (r : RemoteBlocklists) (io : RefreshIo) :
    List Nat → Disk → Except BlocklistError Unit × Disk
  | [], disk => (.ok (), disk)
  | idx :: staged, disk =>
      if io.rename (r.pathFor idx) && (disk (r.tmpPathFor idx)).isSome then
        renameAll r io staged
          ((disk.set (r.pathFor idx) (disk (r.tmpPathFor idx))).set (r.tmpPathFor idx) none)
      else (.error (.io (r.pathFor idx)), disk)

/-- `RemoteBlocklists::refresh`: all bodies are staged before any
file is replaced. -/
def refresh (r : RemoteBlocklists) (io : RefreshIo) (disk : Disk) :
    Except BlocklistError Unit × Disk :=
  if r.urls = [] then (.ok (), disk)
  else if !io.createDir then (.error (.io r.downloadDir), disk)
  else if !io.buildClient then (.error .httpClient, disk)
  else
    match r.stage io r.urls 0 disk with
    | (.error e, disk) => (.error e, disk)
    | (.ok staged, disk) => r.renameAll io staged disk

end RemoteBlocklists

/-- `ReloadableBlocklist`, without its lock. -/
structure ReloadableBlocklist where
  engine : BlocklistEngine
  paths : List Path
  allowlistPaths : List Path
  remote : RemoteBlocklists
  allowlistRemote : RemoteBlocklists

/-- What the environment answers during one `refresh_and_reload`. -/
structure ReloadIo where
  block : RefreshIo
  allow : RefreshIo

namespace ReloadableBlocklist

/-- `from_config`: an empty engine until the first reload. -/
def fromConfig (config : BlocklistConfig) : ReloadableBlocklist where
  engine := {}
  paths := config.paths
  allowlistPaths := config.allowlistPaths
  remote :=
    { urls := config.urls, downloadDir := config.downloadDir
      timeout := config.downloadTimeout, filePrefix := "subscription".toList }
  allowlistRemote :=
    { urls := config.allowlistUrls, downloadDir := config.downloadDir
      timeout := config.downloadTimeout, filePrefix := "allowlist".toList }

/-- `all_block_paths`. -/
def allBlockPaths (b : ReloadableBlocklist) : List Path := b.paths ++ b.remote.paths

/-- `all_allow_paths`. -/
def allAllowPaths (b : ReloadableBlocklist) : List Path :=
  b.allowlistPaths ++ b.allowlistRemote.paths

section
variable (U : UnicodeCase)

/-- `reload`: if it fails, the old rules stick around. -/
def reload (b : ReloadableBlocklist) (disk : Disk) :
    Except BlocklistError ParseReport × ReloadableBlocklist :=
  match BlocklistEngine.fromSources U disk b.allBlockPaths b.allAllowPaths with
  | .error e => (.error e, b)
  | .ok (engine, report) => (.ok report, { b with engine })

/-- `refresh_and_reload`, left alone. -/
def refreshAndReload (b : ReloadableBlocklist) (io : ReloadIo) (disk : Disk) :
    Except BlocklistError ParseReport × ReloadableBlocklist × Disk :=
  match b.remote.refresh io.block disk with
  | (.error e, disk) => (.error e, b, disk)
  | (.ok (), disk) =>
      match b.allowlistRemote.refresh io.allow disk with
      | (.error e, disk) => (.error e, b, disk)
      | (.ok (), disk) =>
          let (result, b) := b.reload U disk
          (result, b, disk)

/-- `ReloadableBlocklist::decide`. -/
def decide (b : ReloadableBlocklist) (domain : Str) : BlockDecision :=
  b.engine.decide U domain

/-- The blocklist part of `run_serve`: an empty engine, then one initial
refresh when the blocklist is enabled, whose error is only logged. -/
def start (config : BlocklistConfig) (io : ReloadIo) (disk : Disk) :
    ReloadableBlocklist × Disk :=
  let b := fromConfig config
  if config.enabled then (b.refreshAndReload U io disk).2 else (b, disk)

end

end ReloadableBlocklist

/-! ## File names do not collide -/

theorem ofDigitChars_pad4 (idx : Nat) : Nat.ofDigitChars 10 (pad4 idx) 0 = idx := by
  unfold pad4
  rw [Nat.ofDigitChars_append, Nat.ofDigitChars_replicate_zero, Nat.mul_zero,
    Nat.ofDigitChars_toDigits (by decide) le_rfl]

theorem Path.join_inj {base a b : Path} (hhead : a.head? = b.head?)
    (h : Path.join base a = Path.join base b) : a = b := by
  unfold Path.join at h
  rw [hhead] at h
  split at h
  · exact h
  · split at h
    · exact h
    · split at h
      · exact List.append_cancel_left h
      · exact List.tail_eq_of_cons_eq (List.append_cancel_left h)

namespace RemoteBlocklists

variable {r : RemoteBlocklists} {io : RefreshIo}

/-- A file name determines its extension and its index. -/
theorem fileFor_inj {e e' : Str} {i j : Nat} (hlen : e.length = e'.length)
    (h : r.fileFor e i = r.fileFor e' j) : e = e' ∧ i = j := by
  have hname := Path.join_inj (by cases r.filePrefix <;> rfl) h
  have htail := List.tail_eq_of_cons_eq (List.append_cancel_left hname)
  have hsplit := List.append_inj' htail (by simp [hlen])
  refine ⟨List.tail_eq_of_cons_eq hsplit.2, ?_⟩
  rw [← ofDigitChars_pad4 i, hsplit.1, ofDigitChars_pad4]

/-- A file name ends as its extension does. -/
theorem getLast?_fileFor (r : RemoteBlocklists) {e : Str} {c : Char} (he : e.getLast? = some c)
    (i : Nat) : (r.fileFor e i).getLast? = some c := by
  have hname : (r.filePrefix ++ '-' :: (pad4 i ++ '.' :: e)).getLast? = some c := by
    simp [List.getLast?_append, List.getLast?_cons, he]
  unfold fileFor Path.join
  split
  · exact hname
  · split
    · exact hname
    · split
      · rw [List.getLast?_append, hname]
        rfl
      · rw [List.getLast?_append, List.getLast?_cons, hname]
        rfl

/-- No list file is a temporary file, of this list or another. -/
theorem pathFor_ne_tmpPathFor (r r' : RemoteBlocklists) (i j : Nat) :
    r.pathFor i ≠ r'.tmpPathFor j := by
  intro h
  have ht : (r.pathFor i).getLast? = some 't' := getLast?_fileFor r rfl i
  have hp : (r'.tmpPathFor j).getLast? = some 'p' := getLast?_fileFor r' rfl j
  rw [h, hp] at ht
  exact absurd ht (by decide)

theorem pathFor_inj {i j : Nat} (h : r.pathFor i = r.pathFor j) : i = j := (fileFor_inj rfl h).2

theorem tmpPathFor_inj {i j : Nat} (h : r.tmpPathFor i = r.tmpPathFor j) : i = j :=
  (fileFor_inj rfl h).2

/-! ## One refresh -/

/-- Download `idx` is fetched, written and renamed without an error. -/
def Delivers (r : RemoteBlocklists) (io : RefreshIo) (idx : Nat) : Prop :=
  (io.fetch idx).isSome ∧ io.write (r.tmpPathFor idx) = .ok () ∧
    io.rename (r.pathFor idx) = true

/-- Every operation of a refresh succeeds. -/
def Succeeds (r : RemoteBlocklists) (io : RefreshIo) : Prop :=
  r.urls = [] ∨ io.createDir = true ∧ io.buildClient = true ∧
    ∀ idx < r.urls.length, r.Delivers io idx

theorem stage_inv {urls : List Str} {k : Nat} {disk disk' : Disk} {staged : List Nat}
    (h : r.stage io urls k disk = (.ok staged, disk')) :
    staged = List.range' k urls.length ∧
      (∀ i ∈ staged, (io.fetch i).isSome ∧ io.write (r.tmpPathFor i) = .ok ()) := by
  induction urls generalizing k disk staged with
  | nil =>
      cases h
      simp
  | cons url urls ih =>
      unfold stage at h
      split at h
      · cases h
      · rename_i body hfetch
        split at h
        · cases h
        · rename_i hwrite
          split at h
          · cases h
          · rename_i staged' disk'' hrest
            cases h
            obtain ⟨hs, hall⟩ := ih hrest
            refine ⟨by rw [hs]; rfl, ?_⟩
            intro i hi
            rcases List.mem_cons.mp hi with rfl | hi
            · exact ⟨by rw [hfetch]; rfl, hwrite⟩
            · exact hall i hi

/-- The download loop when nothing fails: each temporary file holds its
body, every other file is untouched. -/
theorem stage_ok (r : RemoteBlocklists) (io : RefreshIo) (urls : List Str) (k : Nat)
    (disk : Disk)
    (h : ∀ i ∈ List.range' k urls.length,
      (io.fetch i).isSome ∧ io.write (r.tmpPathFor i) = .ok ()) :
    ∃ disk', r.stage io urls k disk = (.ok (List.range' k urls.length), disk') ∧
      (∀ i ∈ List.range' k urls.length, disk' (r.tmpPathFor i) = io.fetch i) ∧
      ∀ p, (∀ i ∈ List.range' k urls.length, p ≠ r.tmpPathFor i) → disk' p = disk p := by
  induction urls generalizing k disk with
  | nil => exact ⟨disk, rfl, by simp, fun _ _ => rfl⟩
  | cons url urls ih =>
      obtain ⟨hfetch, hwrite⟩ := h k (by simp [List.range'])
      obtain ⟨body, hbody⟩ := Option.isSome_iff_exists.mp hfetch
      obtain ⟨disk', hst, htmp, hframe⟩ := ih (k + 1)
        (disk.set (r.tmpPathFor k) (some body)) fun i hi => h i (List.mem_cons_of_mem _ hi)
      have hk : ∀ i ∈ List.range' (k + 1) urls.length, r.tmpPathFor k ≠ r.tmpPathFor i := by
        intro i hi heq
        have := tmpPathFor_inj heq
        simp only [List.mem_range'_1] at hi
        omega
      refine ⟨disk', ?_, ?_, ?_⟩
      · unfold stage
        simp only [hbody, hwrite, hst]
        rfl
      · intro i hi
        rcases List.mem_cons.mp hi with rfl | hi
        · rw [hframe _ hk, Disk.set_self, hbody]
        · exact htmp i hi
      · intro p hp
        rw [hframe p fun i hi => hp i (List.mem_cons_of_mem _ hi),
          Disk.set_of_ne (hp k (by simp [List.range']))]

theorem renameAll_inv {staged : List Nat} {disk disk' : Disk}
    (h : r.renameAll io staged disk = (.ok (), disk')) :
    ∀ i ∈ staged, io.rename (r.pathFor i) = true := by
  induction staged generalizing disk with
  | nil => simp
  | cons k staged ih =>
      unfold renameAll at h
      split at h
      · rename_i hk
        intro i hi
        rcases List.mem_cons.mp hi with rfl | hi
        · exact ((Bool.and_eq_true _ _).mp hk).1
        · exact ih h i hi
      · cases h

/-- The rename loop when nothing fails: each file takes the content of its
temporary file. -/
theorem renameAll_ok (r : RemoteBlocklists) (io : RefreshIo) {staged : List Nat} (disk : Disk)
    (hnd : staged.Nodup)
    (hren : ∀ i ∈ staged, io.rename (r.pathFor i) = true)
    (htmp : ∀ i ∈ staged, (disk (r.tmpPathFor i)).isSome) :
    ∃ disk', r.renameAll io staged disk = (.ok (), disk') ∧
      (∀ i ∈ staged, disk' (r.pathFor i) = disk (r.tmpPathFor i)) ∧
      (∀ p, (∀ i ∈ staged, p ≠ r.pathFor i ∧ p ≠ r.tmpPathFor i) → disk' p = disk p) := by
  induction staged generalizing disk with
  | nil => exact ⟨disk, rfl, by simp, fun _ _ => rfl⟩
  | cons k staged ih =>
      obtain ⟨hk, hnd⟩ := List.nodup_cons.mp hnd
      have hne : ∀ i ∈ staged, i ≠ k := by
        intro i hi heq
        exact hk (heq ▸ hi)
      -- the first rename leaves the other temporary files alone
      have hkeep : ∀ i ∈ staged,
          ((disk.set (r.pathFor k) (disk (r.tmpPathFor k))).set (r.tmpPathFor k) none)
            (r.tmpPathFor i) = disk (r.tmpPathFor i) := by
        intro i hi
        rw [Disk.set_of_ne fun h => hne i hi (tmpPathFor_inj h),
          Disk.set_of_ne fun h => pathFor_ne_tmpPathFor r r k i h.symm]
      obtain ⟨disk', hok, hpath, hframe⟩ := ih
        ((disk.set (r.pathFor k) (disk (r.tmpPathFor k))).set (r.tmpPathFor k) none)
        hnd (fun i hi => hren i (List.mem_cons_of_mem _ hi))
        (fun i hi => by
          rw [hkeep i hi]
          exact htmp i (List.mem_cons_of_mem _ hi))
      refine ⟨disk', ?_, ?_, ?_⟩
      · rw [renameAll, hren k List.mem_cons_self, htmp k List.mem_cons_self]
        exact hok
      · intro i hi
        rcases List.mem_cons.mp hi with rfl | hi
        · have hfr := hframe (r.pathFor i) fun j hj =>
            ⟨fun h => hne j hj (pathFor_inj h).symm, pathFor_ne_tmpPathFor r r i j⟩
          rw [hfr, Disk.set_of_ne (pathFor_ne_tmpPathFor r r i i), Disk.set_self]
        · rw [hpath i hi, hkeep i hi]
      · intro p hp
        obtain ⟨h1, h2⟩ := hp k List.mem_cons_self
        rw [hframe p fun i hi => hp i (List.mem_cons_of_mem _ hi), Disk.set_of_ne h2,
          Disk.set_of_ne h1]

/-- A refresh without an error: every list file holds its body. -/
theorem refresh_of_succeeds (h : r.Succeeds io) (disk : Disk) :
    ∃ disk', r.refresh io disk = (.ok (), disk') ∧
      ∀ idx < r.urls.length, disk' (r.pathFor idx) = io.fetch idx ∧ (io.fetch idx).isSome := by
  by_cases hurls : r.urls = []
  · refine ⟨disk, by rw [refresh, if_pos hurls], ?_⟩
    intro idx hidx
    simp [hurls] at hidx
  obtain h0 | ⟨hdir, hclient, hall⟩ := h
  · exact absurd h0 hurls
  have hmem : ∀ i, i ∈ List.range' 0 r.urls.length ↔ i < r.urls.length := by
    intro i
    simp
  obtain ⟨disk₁, hst, htmp, _⟩ := stage_ok r io r.urls 0 disk fun i hi =>
    ⟨(hall i ((hmem i).mp hi)).1, (hall i ((hmem i).mp hi)).2.1⟩
  obtain ⟨disk₂, hren, hpath, _⟩ := renameAll_ok r io disk₁
    List.nodup_range' (fun i hi => (hall i ((hmem i).mp hi)).2.2)
    (fun i hi => by
      rw [htmp i hi]
      exact (hall i ((hmem i).mp hi)).1)
  refine ⟨disk₂, ?_, ?_⟩
  · unfold refresh
    simp only [hurls, hdir, hclient, hst, hren, Bool.not_true, Bool.false_eq_true, if_false]
  · intro idx hidx
    have hi := (hmem idx).mpr hidx
    exact ⟨by rw [hpath idx hi, htmp idx hi], (hall idx hidx).1⟩

/-- A refresh returns `Ok` exactly when nothing in it fails. -/
theorem refresh_ok_iff (disk : Disk) : (r.refresh io disk).1 = .ok () ↔ r.Succeeds io := by
  constructor
  · intro h
    unfold refresh at h
    split at h
    · rename_i hurls
      exact .inl hurls
    · split at h
      · cases h
      · rename_i hdir
        split at h
        · cases h
        · rename_i hclient
          split at h
          · cases h
          · rename_i staged disk' hst
            obtain ⟨rfl, hall⟩ := stage_inv hst
            have hren := renameAll_inv (Prod.ext (by exact h) rfl)
            refine .inr ⟨by simpa using hdir, by simpa using hclient, ?_⟩
            intro idx hidx
            have hi : idx ∈ List.range' 0 r.urls.length := by simpa using hidx
            exact ⟨(hall idx hi).1, (hall idx hi).2, hren idx hi⟩
  · intro h
    obtain ⟨disk', hok, _⟩ := refresh_of_succeeds h disk
    rw [hok]

theorem paths_readable_of_succeeds (h : r.Succeeds io) (disk : Disk) :
    Readable (r.refresh io disk).2 r.paths := by
  obtain ⟨disk', hok, hbody⟩ := refresh_of_succeeds h disk
  rw [hok]
  intro p hp
  obtain ⟨idx, hidx, rfl⟩ := List.mem_map.mp hp
  obtain ⟨heq, hsome⟩ := hbody idx (List.mem_range.mp hidx)
  show (disk' (r.pathFor idx)).isSome
  rw [heq]
  exact hsome

/-! ## A refresh, failed or not, leaves other files readable -/

theorem stage_frame (urls : List Str) (k : Nat) (disk : Disk) {p : Path}
    (hp : ∀ i, p ≠ r.tmpPathFor i) : (r.stage io urls k disk).2 p = disk p := by
  induction urls generalizing k disk with
  | nil => rfl
  | cons url urls ih =>
      unfold stage
      split
      · rfl
      · rename_i body _
        split
        · exact Disk.set_of_ne (hp k) _
        · have hrest := ih (k + 1) (disk.set (r.tmpPathFor k) (some body))
          rw [Disk.set_of_ne (hp k)] at hrest
          split
          · rename_i heq
            rw [heq] at hrest
            exact hrest
          · rename_i heq
            rw [heq] at hrest
            exact hrest

theorem renameAll_readable (staged : List Nat) (disk : Disk) {p : Path}
    (hp : ∀ i, p ≠ r.tmpPathFor i) (h : (disk p).isSome) :
    ((r.renameAll io staged disk).2 p).isSome := by
  induction staged generalizing disk with
  | nil => exact h
  | cons k staged ih =>
      unfold renameAll
      split
      · rename_i hk
        refine ih _ ?_
        rw [Disk.set_of_ne (hp k)]
        by_cases hpk : p = r.pathFor k
        · rw [hpk, Disk.set_self]
          exact ((Bool.and_eq_true _ _).mp hk).2
        · rw [Disk.set_of_ne hpk]
          exact h
      · exact h

theorem refresh_readable (r : RemoteBlocklists) (io : RefreshIo) (disk : Disk) {p : Path}
    (hp : ∀ i, p ≠ r.tmpPathFor i) (h : (disk p).isSome) : ((r.refresh io disk).2 p).isSome := by
  unfold refresh
  split
  · exact h
  split
  · exact h
  split
  · exact h
  have hframe : (r.stage io r.urls 0 disk).2 p = disk p := stage_frame r.urls 0 disk hp
  split
  · rename_i heq
    rw [heq] at hframe
    rw [hframe]
    exact h
  · rename_i staged disk₁ heq
    rw [heq] at hframe
    have h₁ : (disk₁ p).isSome := by
      rw [show disk₁ p = disk p from hframe]
      exact h
    exact renameAll_readable staged disk₁ hp h₁

end RemoteBlocklists

/-! ## Refresh and reload -/

namespace ReloadableBlocklist

variable {U : UnicodeCase}

/-- Both refreshes go through. -/
def RefreshSucceeds (b : ReloadableBlocklist) (io : ReloadIo) : Prop :=
  b.remote.Succeeds io.block ∧ b.allowlistRemote.Succeeds io.allow

/-- Every file a reload reads. -/
def allPaths (b : ReloadableBlocklist) : List Path := b.allBlockPaths ++ b.allAllowPaths

/-- **All that a refresh-and-reload can do.** Both refreshes go through and
every file is readable: the engine is that of all lines then on disk. In
any other case the old rules stick around. -/
theorem refreshAndReload_cases (b : ReloadableBlocklist) (io : ReloadIo) (disk : Disk) :
    let disk' := (b.refreshAndReload U io disk).2.2
    (b.RefreshSucceeds io ∧ Readable disk' b.allPaths ∧
      (b.refreshAndReload U io disk).2.1 =
        { b with engine := engineOf U (linesOf disk' b.allBlockPaths)
                            (linesOf disk' b.allAllowPaths) }) ∨
    ¬ (b.RefreshSucceeds io ∧ Readable disk' b.allPaths) ∧
      (b.refreshAndReload U io disk).2.1 = b := by
  by_cases hs : b.RefreshSucceeds io
  · obtain ⟨disk₁, hblock, _⟩ := RemoteBlocklists.refresh_of_succeeds hs.1 disk
    obtain ⟨disk₂, hallow, _⟩ := RemoteBlocklists.refresh_of_succeeds hs.2 disk₁
    have heq : b.refreshAndReload U io disk =
        ((b.reload U disk₂).1, (b.reload U disk₂).2, disk₂) := by
      unfold refreshAndReload
      simp only [hblock, hallow]
    rw [heq]
    by_cases hread : Readable disk₂ b.allPaths
    · refine .inl ⟨hs, hread, ?_⟩
      simp only [reload, BlocklistEngine.fromSources_of_readable hread]
    · refine .inr ⟨fun h => hread h.2, ?_⟩
      obtain ⟨p, hp⟩ := BlocklistEngine.fromSources_of_not_readable (U := U) hread
      simp only [reload, hp]
  · refine .inr ⟨fun h => hs h.1, ?_⟩
    unfold refreshAndReload
    split
    · rfl
    · rename_i disk₁ hblock
      have hb : b.remote.Succeeds io.block := by
        rw [← RemoteBlocklists.refresh_ok_iff disk, hblock]
      split
      · rfl
      · rename_i disk₂ hallow
        have ha : b.allowlistRemote.Succeeds io.allow := by
          rw [← RemoteBlocklists.refresh_ok_iff disk₁, hallow]
        exact absurd ⟨hb, ha⟩ hs

/-- After two successful refreshes the downloaded files are readable, so
only the local ones can stop the reload. -/
theorem allPaths_readable_of_succeeds {b : ReloadableBlocklist} {io : ReloadIo} {disk : Disk}
    (h : b.RefreshSucceeds io)
    (hread : Readable (b.refreshAndReload U io disk).2.2 (b.paths ++ b.allowlistPaths)) :
    Readable (b.refreshAndReload U io disk).2.2 b.allPaths := by
  obtain ⟨disk₁, hblock, _⟩ := RemoteBlocklists.refresh_of_succeeds h.1 disk
  obtain ⟨disk₂, hallow, _⟩ := RemoteBlocklists.refresh_of_succeeds h.2 disk₁
  have hdisk : (b.refreshAndReload U io disk).2.2 = disk₂ := by
    unfold refreshAndReload
    simp only [hblock, hallow]
  rw [hdisk] at hread ⊢
  have hsub : Readable disk₂ b.remote.paths := by
    have h₁ := RemoteBlocklists.paths_readable_of_succeeds h.1 disk
    rw [hblock] at h₁
    intro p hp
    obtain ⟨idx, _, rfl⟩ := List.mem_map.mp hp
    have h₂ := RemoteBlocklists.refresh_readable b.allowlistRemote io.allow disk₁
      (fun j => RemoteBlocklists.pathFor_ne_tmpPathFor _ _ idx j) (h₁ _ hp)
    rwa [hallow] at h₂
  have hal : Readable disk₂ b.allowlistRemote.paths := by
    have h₂ := RemoteBlocklists.paths_readable_of_succeeds h.2 disk₁
    rwa [hallow] at h₂
  intro p hp
  simp only [allPaths, allBlockPaths, allAllowPaths, List.mem_append] at hp
  rcases hp with (hp | hp) | (hp | hp)
  · exact hread p (List.mem_append_left _ hp)
  · exact hsub p hp
  · exact hread p (List.mem_append_right _ hp)
  · exact hal p hp

/-- The initial load of an enabled blocklist, in the terms of the disk it
leaves. -/
theorem start_cases {config : BlocklistConfig} (hen : config.enabled = true) (io : ReloadIo)
    (disk : Disk) (hread : Readable (start U config io disk).2
      (config.paths ++ config.allowlistPaths)) :
    let b := fromConfig config
    let disk' := (start U config io disk).2
    (b.RefreshSucceeds io ∧
      (start U config io disk).1 =
        { b with engine := engineOf U (linesOf disk' b.allBlockPaths)
                            (linesOf disk' b.allAllowPaths) }) ∨
    ¬ b.RefreshSucceeds io ∧ (start U config io disk).1 = b := by
  have hstart : start U config io disk = ((fromConfig config).refreshAndReload U io disk).2 := by
    unfold start
    rw [if_pos hen]
  rw [hstart] at hread ⊢
  rcases refreshAndReload_cases (U := U) (fromConfig config) io disk with
    ⟨hs, _, heq⟩ | ⟨hnot, heq⟩
  · exact .inl ⟨hs, heq⟩
  · exact .inr ⟨fun hs => hnot ⟨hs, allPaths_readable_of_succeeds hs hread⟩, heq⟩

end ReloadableBlocklist

/-- Matching composes: a name below a rule that is itself below another. -/
theorem RuleMatch.trans {n r e : Str} (h : RuleMatch n r) (h' : RuleMatch r e) :
    RuleMatch n e := by
  rcases h with rfl | h
  · exact h'
  · rcases h' with rfl | h'
    · exact .inr h
    · exact .inr (h'.trans ((List.suffix_cons '.' r).trans h))

theorem LineCovers.of_match {U : UnicodeCase} {kind : NormalizedRule → ParsedLine}
    {ls : List Str} {n r : Str} (hm : RuleMatch n r) (h : LineCovers U kind ls r) :
    LineCovers U kind ls n := by
  obtain ⟨l, hl, e, hp, he⟩ := h
  exact ⟨l, hl, e, hp, hm.trans he⟩

theorem decide_empty (U : UnicodeCase) (d : Str) :
    BlocklistEngine.decide U {} d = .allow := by
  simp [BlocklistEngine.decide, BlocklistEngine.ruleMatches]

/-- **When a cold start keeps the local rules.** With the local files
readable, every name that a local block rule matches and no exception on
disk covers is blocked after the initial refresh exactly when no operation
of the two refreshes fails, or there is no such name to begin with: every
local block rule is itself covered by an exception. -/
theorem start_blocks_local_iff (U : UnicodeCase) (config : BlocklistConfig) (io : ReloadIo)
    (disk : Disk) (hen : config.enabled = true)
    (hread : Readable (ReloadableBlocklist.start U config io disk).2
      (config.paths ++ config.allowlistPaths)) :
    let b := (ReloadableBlocklist.start U config io disk).1
    let disk' := (ReloadableBlocklist.start U config io disk).2
    let locals := linesOf disk' config.paths
    let Excepted := ExceptionCovers U (linesOf disk' b.allBlockPaths)
      (linesOf disk' b.allAllowPaths)
    (∀ d, LineCovers U .block locals (normalizeDomain U d) →
        ¬ Excepted (normalizeDomain U d) → b.decide U d = .block) ↔
      (ReloadableBlocklist.fromConfig config).RefreshSucceeds io ∨
      ∀ l ∈ locals, ∀ r, parseLine U l = .block (.domain r) → Excepted r := by
  intro b disk' locals Excepted
  rcases ReloadableBlocklist.start_cases hen io disk hread with ⟨hs, hb⟩ | ⟨hs, hb⟩
  · -- every file is read: the engine is that of all lines on disk
    have hb : b = _ := hb
    refine iff_of_true ?_ (.inl hs)
    intro d hlocal hex
    have hengine : b.engine = engineOf U (linesOf disk' b.allBlockPaths)
        (linesOf disk' b.allAllowPaths) := by rw [hb]; rfl
    have hall : LineCovers U .block (linesOf disk' b.allBlockPaths) (normalizeDomain U d) := by
      have hpaths : linesOf disk' b.allBlockPaths =
          locals ++ linesOf disk' b.remote.paths := by
        rw [hb]
        exact List.flatMap_append
      rw [hpaths, lineCovers_append]
      exact .inl hlocal
    show b.engine.decide U d = .block
    rw [hengine]
    exact (engineOf_decide _ _ d).2.1.mpr ⟨hex, hall⟩
  · -- the engine is still the empty one
    have hb : b = ReloadableBlocklist.fromConfig config := hb
    have hnever : ∀ d, b.decide U d ≠ .block := by
      intro d h
      rw [hb] at h
      have hempty := decide_empty U d
      rw [show (ReloadableBlocklist.fromConfig config).decide U d = .allow from hempty] at h
      cases h
    constructor
    · intro h
      refine .inr ?_
      intro l hl r hp
      obtain ⟨_, text, rfl⟩ := parseLine_wellFormed (U := U) l r (.inl hp)
      by_contra hex
      exact hnever text (h text ⟨l, hl, _, hp, .inl rfl⟩ hex)
    · intro h
      rcases h with h | h
      · exact absurd h hs
      intro d hlocal hex
      obtain ⟨l, hl, r, hp, hm⟩ := hlocal
      rcases h l hl r hp with hx | hx
      · exact absurd (.inl (hx.of_match hm)) hex
      · exact absurd (.inr (hx.of_match hm)) hex

/-- One local list with one rule, one subscription. -/
def sampleConfig : BlocklistConfig where
  paths := ["local".toList]
  urls := ["https://lists.example/ads".toList]

/-- One local file with one rule. -/
def sampleDisk : Disk := fun p =>
  if p = "local".toList then some "||ads.example^".toList else none

theorem sample_not_excepted :
    ¬ ExceptionCovers .ascii ["||ads.example^".toList] [] "ads.example".toList := by
  have hparse : parseLine .ascii "||ads.example^".toList =
      .block (.domain "ads.example".toList) := by decide
  intro h
  rcases h with ⟨l, hl, e, hp, _⟩ | ⟨l, hl, _⟩
  · cases List.mem_singleton.mp hl
    rw [hparse] at hp
    cases hp
  · cases hl

/-- The one download fails and the local rule is not in force. -/
theorem start_drops_local_rule :
    ¬ ∀ (U : UnicodeCase) (config : BlocklistConfig) (io : ReloadIo) (disk : Disk),
      config.enabled = true →
      Readable (ReloadableBlocklist.start U config io disk).2
        (config.paths ++ config.allowlistPaths) →
      let b := (ReloadableBlocklist.start U config io disk).1
      let disk' := (ReloadableBlocklist.start U config io disk).2
      ∀ d, LineCovers U .block (linesOf disk' config.paths) (normalizeDomain U d) →
        ¬ ExceptionCovers U (linesOf disk' b.allBlockPaths) (linesOf disk' b.allAllowPaths)
          (normalizeDomain U d) →
        b.decide U d = .block := by
  intro h
  have hblock := h .ascii sampleConfig ⟨{ fetch := fun _ => none }, { fetch := fun _ => none }⟩
    sampleDisk rfl (by unfold Readable; decide) "ads.example".toList
    ⟨"||ads.example^".toList, by decide, "ads.example".toList, by decide, .inl (by decide)⟩
    sample_not_excepted
  exact absurd hblock (by decide)

/-- The same start with the download succeeding. -/
theorem start_blocks_local_sample :
    (ReloadableBlocklist.fromConfig sampleConfig).RefreshSucceeds
        ⟨{ fetch := fun _ => some [] }, { fetch := fun _ => none }⟩ ∧
    (ReloadableBlocklist.start .ascii sampleConfig
        ⟨{ fetch := fun _ => some [] }, { fetch := fun _ => none }⟩ sampleDisk).1.decide
      .ascii "ads.example".toList = .block := by
  have hs : (ReloadableBlocklist.fromConfig sampleConfig).RefreshSucceeds
      ⟨{ fetch := fun _ => some [] }, { fetch := fun _ => none }⟩ :=
    ⟨.inr ⟨rfl, rfl, fun _ _ => ⟨rfl, rfl, rfl⟩⟩, .inl rfl⟩
  refine ⟨hs, ?_⟩
  exact (start_blocks_local_iff .ascii sampleConfig
    ⟨{ fetch := fun _ => some [] }, { fetch := fun _ => none }⟩ sampleDisk rfl
    (by unfold Readable; decide)).mpr (.inl hs) "ads.example".toList
    ⟨"||ads.example^".toList, by decide, "ads.example".toList, by decide, .inl (by decide)⟩
    sample_not_excepted

end Dotdns
