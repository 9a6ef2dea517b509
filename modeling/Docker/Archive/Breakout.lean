import Docker.Archive.Unpack

/-!
# Breakout — what `Unpack`'s confinement checks establish, and where they fall short

Every effect of `Unpack` is on a path that passed the check written for it (`unpack_checked`):
the entry's own path passed `strings.HasPrefix(rel, "../")`, a link's target passed
`strings.HasPrefix(targetPath, extractDir)`, and an overlay whiteout is made next to an entry
path that passed; the parent directory of an entry passed none, since it is made before the
entry's check, and is only known to be the parent of an entry of the stream.  None of these
checks is the confinement they stand for, and `unpack_escapes_dest` gives a stream for each
gap.
-/

namespace Docker.Archive

open LexPath

/-- `filepath.Rel(dest, p)` is `.` or does not start with `..`. -/
def insideDest (dest p : List Char) : Bool :=
  match rel dest p with
  | .ok r => r = ['.'] || !hasPrefix r ['.', '.']
  | .error _ => false

/-- The paths an effect acts on; a symlink's target as it resolves from the link's directory. -/
def Effect.paths : Effect → List (List Char)
  | .mkdirAll p | .removeAll p | .mkdir p | .openFile p | .mknod p | .setMeta p | .chtimes p
  | .setOpaque p | .whiteout p => [p]
  | .link targetPath p => [targetPath, p]
  | .symlink linkname p => [join (dir p) linkname, p]

/-- `path` passed `Unpack`'s breakout check. -/
def PassesRel (dest path : List Char) : Prop :=
  ∃ r, rel dest path = .ok r ∧ hasPrefix r ['.', '.', '/'] = false

/-- The cleaned names of the headers of a stream. -/
def entryNames (entries : List (Except String Header)) : List (List Char) :=
  entries.filterMap fun e => match e with
    | .ok hdr => some (clean hdr.name)
    | .error _ => none

/-- The check each effect passed before it happened, in a stream whose entries have the cleaned
names `names`: a parent directory is that of one of them, and a whiteout is made from the path of
one of them that passed. -/
def Checked (dest : List Char) (names : List (List Char)) : Effect → Prop
  | .mkdirAll p => ∃ name ∈ names, p = join dest (dir name)
  | .removeAll p | .mkdir p | .openFile p | .mknod p | .setMeta p | .chtimes p => PassesRel dest p
  | .link targetPath p => PassesRel dest p ∧ hasPrefix targetPath dest = true
  | .symlink linkname p => PassesRel dest p ∧ hasPrefix (join (dir p) linkname) dest = true
  | .setOpaque d => ∃ name ∈ names, PassesRel dest (join dest name) ∧
      base (join dest name) = whiteoutOpaqueDir ∧ d = dir (join dest name)
  | .whiteout p => ∃ name ∈ names, PassesRel dest (join dest name) ∧
      hasPrefix (base (join dest name)) whiteoutPrefix = true ∧
      p = join (dir (join dest name)) ((base (join dest name)).drop whiteoutPrefix.length)

/-- Every effect so far passed its check, and so did the path of every directory whose times are
set at the end. -/
structure CheckedState (dest : List Char) (names : List (List Char)) (st : UnpackState) : Prop where
  effects : ∀ e ∈ st.effects, Checked dest names e
  dirs : ∀ h ∈ st.dirs, PassesRel dest (join dest h.name)

/-! ## 1. One call at a time -/

section Calls

variable {dest : List Char} {names : List (List Char)} {st : UnpackState}

theorem CheckedState.emit (h : CheckedState dest names st) {e : Effect} (he : Checked dest names e) :
    CheckedState dest names (st.emit e) := by
  refine ⟨?_, h.dirs⟩
  intro e' he'
  rcases List.mem_append.mp he' with he' | he'
  · exact h.effects e' he'
  · rw [List.mem_singleton.mp he']
    exact he

-- `os.Lstat` changes nothing the model records
theorem UnpackState.lstat_effects (st : UnpackState) : st.lstat.2.effects = st.effects := by
  unfold UnpackState.lstat
  split <;> rfl

theorem UnpackState.lstat_dirs (st : UnpackState) : st.lstat.2.dirs = st.dirs := by
  unfold UnpackState.lstat
  split <;> rfl

theorem CheckedState.lstat (h : CheckedState dest names st) : CheckedState dest names st.lstat.2 :=
  ⟨st.lstat_effects ▸ h.effects, st.lstat_dirs ▸ h.dirs⟩

theorem ensureParent_checked (h : CheckedState dest names st) {name : List Char}
    (hname : name ∈ names) :
    CheckedState dest names (ensureParent dest name st) := by
  unfold ensureParent
  by_cases hsuf : hasSuffix name ['/'] = true
  · rw [if_pos hsuf]
    exact h
  rw [if_neg hsuf]
  dsimp only
  by_cases hfi : st.lstat.1 = .notExist
  · rw [if_pos hfi]
    exact h.lstat.emit ⟨name, hname, rfl⟩
  · rw [if_neg hfi]
    exact h.lstat

theorem createTarFile_checked (h : CheckedState dest names st) {path : List Char}
    (hpath : PassesRel dest path) (hdr : Header) :
    CheckedState dest names (createTarFile path dest hdr st).2 := by
  unfold createTarFile
  cases hflag : hdr.typeflag with
  | dir =>
    dsimp only
    have h' := h.lstat
    by_cases hfi : st.lstat.1 = .dir
    · rw [if_pos hfi]
      exact h'.emit (e := .setMeta path) hpath
    · rw [if_neg hfi]
      exact (h'.emit (e := .mkdir path) hpath).emit (e := .setMeta path) hpath
  | reg | regA => exact (h.emit (e := .openFile path) hpath).emit (e := .setMeta path) hpath
  | block | char | fifo => exact (h.emit (e := .mknod path) hpath).emit (e := .setMeta path) hpath
  | link =>
    dsimp only
    by_cases hpre : hasPrefix (join dest hdr.linkname) dest = false
    · rw [if_pos hpre]
      exact h
    · rw [if_neg hpre]
      exact (h.emit (e := .link _ path) ⟨hpath, by simpa using hpre⟩).emit
        (e := .setMeta path) hpath
  | symlink =>
    dsimp only
    by_cases hpre : hasPrefix (join (dir path) hdr.linkname) dest = false
    · rw [if_pos hpre]
      exact h
    · rw [if_neg hpre]
      exact (h.emit (e := .symlink hdr.linkname path) ⟨hpath, by simpa using hpre⟩).emit
        (e := .setMeta path) hpath
  | xGlobalHeader => exact h
  | other flag => exact h

theorem convertRead_checked (h : CheckedState dest names st) {name : List Char}
    (hname : name ∈ names) (hpath : PassesRel dest (join dest name)) :
    CheckedState dest names (convertRead (join dest name) st).2 := by
  unfold convertRead
  dsimp only
  split_ifs with hopq hwh
  · exact h.emit ⟨name, hname, hpath, hopq, rfl⟩
  · exact h.emit ⟨name, hname, hpath, hwh, rfl⟩
  · exact h

theorem CheckedState.addDir (h : CheckedState dest names st) {hdr : Header}
    (hp : PassesRel dest (join dest hdr.name)) :
    CheckedState dest names { st with dirs := st.dirs ++ [hdr] } := by
  refine ⟨h.effects, ?_⟩
  intro x hx
  rcases List.mem_append.mp hx with hx | hx
  · exact h.dirs x hx
  · rw [List.mem_singleton.mp hx]
    exact hp

theorem CheckedState.chtimesDirs (h : CheckedState dest names st) :
    CheckedState dest names (st.dirs.foldl (fun st hdr => st.emit (.chtimes (join dest hdr.name))) st) := by
  -- the directories are those of `st`, whatever the fold has emitted so far
  suffices ∀ (hs : List Header) (st' : UnpackState), CheckedState dest names st' → st'.dirs = st.dirs →
      (∀ hdr ∈ hs, hdr ∈ st.dirs) →
      CheckedState dest names (hs.foldl (fun st hdr => st.emit (.chtimes (join dest hdr.name))) st') from
    this st.dirs st h rfl (fun _ hm => hm)
  intro hs
  induction hs with
  | nil => intro st' h' _ _; exact h'
  | cons hdr hs ih =>
    intro st' h' hdirs hmem
    exact ih _ (h'.emit (h.dirs hdr (hmem hdr List.mem_cons_self))) hdirs
      (fun x hx => hmem x (List.mem_cons_of_mem hdr hx))

end Calls

/-! ## 2. Runs -/

theorem mem_entryNames {entries : List (Except String Header)} {hdr : Header}
    (h : .ok hdr ∈ entries) : clean hdr.name ∈ entryNames entries :=
  List.mem_filterMap.mpr ⟨_, h, rfl⟩

/-- The entry loop keeps every effect checked, by induction on the entries. -/
theorem unpackLoop_checked (dest : List Char) (options : TarOptions) {names : List (List Char)} :
    ∀ (entries : List (Except String Header)) {st : UnpackState},
      (∀ hdr, .ok hdr ∈ entries → clean hdr.name ∈ names) → CheckedState dest names st →
      CheckedState dest names (unpackLoop dest options entries st).2
  | [], _, _, h => h.chtimesDirs
  | .error err :: _, _, _, h => h
  | .ok hdr :: rest, st, hnames, h => by
    have hname := hnames hdr List.mem_cons_self
    have hrest : ∀ hdr, .ok hdr ∈ rest → clean hdr.name ∈ names :=
      fun hdr hm => hnames hdr (List.mem_cons_of_mem _ hm)
    unfold Docker.Archive.unpackLoop
    dsimp only
    by_cases hex : (options.excludePatterns.any fun ex => hasPrefix (clean hdr.name) ex) = true
    · rw [if_pos hex]
      exact unpackLoop_checked dest options rest hrest h
    rw [if_neg hex]
    have h₁ := ensureParent_checked h hname
    generalize ensureParent dest (clean hdr.name) st = st₁ at h₁ ⊢
    cases hrel : rel dest (join dest (clean hdr.name)) with
    | error err => exact h₁
    | ok r =>
      dsimp only
      by_cases hbr : hasPrefix r ['.', '.', '/'] = true
      · rw [if_pos hbr]
        exact h₁
      rw [if_neg hbr]
      -- from here on every effect is on `path`, which passed the check, or next to it
      have hpath : PassesRel dest (join dest (clean hdr.name)) := ⟨r, hrel, by simpa using hbr⟩
      have h₂ := h₁.lstat
      generalize st₁.lstat = l at h₂ ⊢
      obtain ⟨fi, st₂⟩ := l
      dsimp only at h₂ ⊢
      by_cases hd : options.noOverwriteDirNonDir = true ∧ fi = Stat.dir ∧ hdr.typeflag ≠ Typeflag.dir
      · rw [if_pos hd]
        exact h₂
      rw [if_neg hd]
      by_cases hn : options.noOverwriteDirNonDir = true ∧ fi = Stat.nonDir ∧ hdr.typeflag = Typeflag.dir
      · rw [if_pos hn]
        exact h₂
      rw [if_neg hn]
      by_cases hdot : fi = Stat.dir ∧ clean hdr.name = ['.']
      · rw [if_pos hdot]
        exact unpackLoop_checked dest options rest hrest h₂
      rw [if_neg hdot]
      -- an existing path is removed before the entry is created
      have h₃ : CheckedState dest names (if fi ≠ .notExist ∧ ¬(fi = .dir ∧ hdr.typeflag = .dir) then
          st₂.emit (.removeAll (join dest (clean hdr.name))) else st₂) := by
        split_ifs
        · exact h₂.emit (e := .removeAll _) hpath
        · exact h₂
      generalize (if fi ≠ .notExist ∧ ¬(fi = .dir ∧ hdr.typeflag = .dir) then
          st₂.emit (.removeAll (join dest (clean hdr.name))) else st₂) = st₃ at h₃ ⊢
      -- the overlay converter makes a whiteout instead of the entry
      have h₄ : CheckedState dest names (if options.whiteoutFormat = .overlay then
          convertRead (join dest (clean hdr.name)) st₃ else (true, st₃)).2 := by
        split_ifs
        · exact convertRead_checked h₃ hname hpath
        · exact h₃
      generalize (if options.whiteoutFormat = .overlay then
          convertRead (join dest (clean hdr.name)) st₃ else (true, st₃)) = cv at h₄ ⊢
      obtain ⟨writeFile, st₄⟩ := cv
      dsimp only at h₄ ⊢
      by_cases hw : writeFile = false
      · rw [if_pos hw]
        exact unpackLoop_checked dest options rest hrest h₄
      rw [if_neg hw]
      have h₅ := createTarFile_checked h₄ hpath
        { name := clean hdr.name, typeflag := hdr.typeflag, linkname := hdr.linkname }
      generalize createTarFile (join dest (clean hdr.name)) dest
        { name := clean hdr.name, typeflag := hdr.typeflag, linkname := hdr.linkname } st₄ = res
        at h₅ ⊢
      obtain ⟨res, st₅⟩ := res
      rcases res with err | ⟨⟩
      · exact h₅
      apply unpackLoop_checked dest options rest hrest
      split_ifs
      · exact h₅.addDir hpath
      · exact h₅

/-- Every effect of `Unpack` passed the check written for it. -/
theorem unpack_checked (entries : List (Except String Header)) (dest : List Char)
    (options : TarOptions) (answers : List Stat) :
    ∀ e ∈ (unpack entries dest options answers).2.effects, Checked dest (entryNames entries) e :=
  (unpackLoop_checked dest options entries (fun _ h => mem_entryNames h) ⟨by simp, by simp⟩).effects

/-- A whiteout `.wh.f` unpacked into `/d` in the overlay format: the device `/d/f` is made next to
the entry's path, which passed the check. -/
theorem unpack_checked_whiteout :
    Checked "/d".toList (entryNames [.ok ⟨".wh.f".toList, .reg, []⟩]) (.whiteout "/d/f".toList) :=
  unpack_checked [.ok ⟨".wh.f".toList, .reg, []⟩] "/d".toList ⟨[], false, .overlay⟩
    [.dir, .notExist] _ (by decide)

/-! ## 3. The gaps -/

/-- The parent directory of an entry is made before the entry's check: when it is missing, an
entry that breaks out has it made first. -/
theorem unpackLoop_mkdirAll_before_breakout (dest : List Char) (options : TarOptions)
    (hdr : Header) (rest : List (Except String Header)) (st : UnpackState) {as : List Stat}
    {r : List Char}
    (hex : (options.excludePatterns.any fun ex => hasPrefix (clean hdr.name) ex) = false)
    (hsuf : hasSuffix (clean hdr.name) ['/'] = false) (hans : st.answers = .notExist :: as)
    (hrel : rel dest (join dest (clean hdr.name)) = .ok r) (hbr : hasPrefix r ['.', '.', '/'] = true) :
    unpackLoop dest options (.ok hdr :: rest) st =
      (.error (.breakout (.outside (clean hdr.name) dest)),
        { st with answers := as,
                  effects := st.effects ++ [.mkdirAll (join dest (dir (clean hdr.name)))] }) := by
  have hparent : ensureParent dest (clean hdr.name) st =
      { st with answers := as,
                effects := st.effects ++ [.mkdirAll (join dest (dir (clean hdr.name)))] } := by
    unfold ensureParent UnpackState.lstat
    rw [hsuf, hans]
    rfl
  unfold unpackLoop
  dsimp only
  rw [hex, hparent, hrel]
  simp [hbr]

/-- Three streams, each unpacked into `/d`, where `Unpack` acts outside `/d`: an entry named `..`
passes the check and has `/` removed and created again with no error; an entry `../x/y` has its
parent `/x` made before its check fails; and a hardlink to `../dx/f` passes the `HasPrefix` check
since `/dx/f` starts with `/d`. -/
theorem unpack_escapes_dest :
    (unpack [.ok ⟨"..".toList, .reg, []⟩] "/d".toList ⟨[], false, .aufs⟩ [.dir, .dir]).1 = .ok () ∧
      Effect.removeAll "/".toList ∈
        (unpack [.ok ⟨"..".toList, .reg, []⟩] "/d".toList ⟨[], false, .aufs⟩ [.dir, .dir]).2.effects ∧
      insideDest "/d".toList "/".toList = false ∧
    (unpack [.ok ⟨"../x/y".toList, .reg, []⟩] "/d".toList ⟨[], false, .aufs⟩ [.notExist]).1 =
        .error (.breakout (.outside "../x/y".toList "/d".toList)) ∧
      (unpack [.ok ⟨"../x/y".toList, .reg, []⟩] "/d".toList ⟨[], false, .aufs⟩ [.notExist]).2.effects =
        [.mkdirAll "/x".toList] ∧
      insideDest "/d".toList "/x".toList = false ∧
    Effect.link "/dx/f".toList "/d/l".toList ∈
        (unpack [.ok ⟨"l".toList, .link, "../dx/f".toList⟩] "/d".toList ⟨[], false, .aufs⟩
          [.dir, .notExist]).2.effects ∧
      insideDest "/d".toList "/dx/f".toList = false := by
  decide

end Docker.Archive
