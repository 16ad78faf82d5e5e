import CheckpointRestore.PodRestore.Reconcile

namespace CheckpointRestore.Restore

open Go Go.Filepath

/-!
# Reading a base image — what `renderPod` depends on

`ReadBaseImage` extracts `config.dump` into a fresh temporary directory.  What it returns depends on
the archive alone, except where `config.dump` is missing or cannot be decoded: then the error names
the file, and so the directory.

* `configDump` — what an archive has under `config.dump`, without the directory;
* `readBaseImage_host` — the reading as a function of the archive and of the file's path;
* `renderPod_temp` — rendering is the same for every temporary directory, or fails with a text that
  names the file in it;
* `renderPod_dump_iff` — which of the two it is, in terms of the archives.
-/

variable {ρ : Type}

/-! ### The temporary directory -/

section Temp
variable (m : Machine)

/-- Where `config.dump` is extracted to at the `k`th call. -/
def Machine.dumpPath (k : ℕ) : String := join (m.tempDir k) configDumpFile

theorem configDumpFile_normal : Normal configDumpFile.toList := by
  refine ⟨?_, ?_, ?_, ?_⟩ <;> decide

theorem tempElems_normal (k : ℕ) : ∀ c ∈ m.tempRoot ++ [m.tempName k], Normal c := by
  intro c hc
  rcases List.mem_append.mp hc with hc | hc
  · exact m.root_normal c hc
  · rw [List.mem_singleton.mp hc]
    exact m.name_normal k

theorem toList_tempDir (k : ℕ) :
    (m.tempDir k).toList = Filepath.render true (m.tempRoot ++ [m.tempName k]) :=
  String.toList_ofList

theorem clean_tempDir (k : ℕ) : clean (m.tempDir k) = m.tempDir k := by
  rw [clean, toList_tempDir, cleanChars_render (tempElems_normal m k)]
  rfl

theorem toList_dumpPath (k : ℕ) : (m.dumpPath k).toList
    = Filepath.render true (m.tempRoot ++ [m.tempName k] ++ [configDumpFile.toList]) :=
  join_render (toList_tempDir m k) (tempElems_normal m k) configDumpFile_normal

/-- Different calls extract to different paths. -/
theorem dumpPath_injective : Function.Injective m.dumpPath := by
  have hsplit : ∀ k, (m.dumpPath k).toList.splitOn '/'
      = [] :: (m.tempRoot ++ [m.tempName k] ++ [configDumpFile.toList]) := by
    intro k
    rw [toList_dumpPath]
    refine splitOn_render_true (fun c hc => ?_) (by simp)
    rcases List.mem_append.mp hc with hc | hc
    · exact (tempElems_normal m k c hc).2.2.2
    · rw [List.mem_singleton.mp hc]
      exact configDumpFile_normal.2.2.2
  intro k k' h
  have heq := congrArg (fun p : String => p.toList.splitOn '/') h
  simp only [hsplit, List.cons.injEq, true_and] at heq
  have hnames := List.append_cancel_right heq
  exact m.name_inj (List.singleton_injective (List.append_cancel_left hnames))

/-- The file lies in the directory. -/
theorem dumpPath_inside (k : ℕ) :
    Strings.hasPrefix (m.dumpPath k) (m.tempDir k ++ "/") = true := by
  have hne : Filepath.render true (m.tempRoot ++ [m.tempName k]) ≠ ['/'] := by
    rw [render_concat m.root_normal, under]
    have hname := (m.name_normal k).1
    split_ifs with hroot
    · simpa using hname
    · intro heq
      have hlen := congrArg List.length heq
      rw [List.length_append, List.length_cons] at hlen
      have hpos := List.length_pos_of_ne_nil hname
      simp only [List.length_cons, List.length_nil] at hlen
      omega
  refine Strings.hasPrefix_iff.mpr ⟨configDumpFile, ?_⟩
  rw [← String.toList_inj, toList_dumpPath, render_concat (tempElems_normal m k), under,
    if_neg hne, String.toList_append, String.toList_append, toList_tempDir]
  simp

end Temp

/-! ### The archive -/

/-- What is extracted from the entries: the content of the last `config.dump`, if any, or the first
    error. -/
def configDump : List TarEntry → Option String → Option (List UInt8) →
    Except EntryError (Option (List UInt8))
  | [], none, found => .ok found
  | [], some msg, _ => .error (.host msg)
  | e :: es, err, found =>
    if clean e.name ≠ configDumpFile then configDump es err found
    else if e.typeflag ≠ typeReg then .error (.notRegular e.name e.typeflag)
    else if e.data.length ≤ maxExtractedFileSize then
      match e.readErr with
      | some msg => .error (.host msg)
      | none => configDump es err (some (e.data.take (maxExtractedFileSize + 1)))
    else .error (.tooLarge e.name)

section Archive
variable {m : Machine} {fs : FS} {k : ℕ}

/-- One entry. -/
theorem untarEntry_host (files : Extracted) (e : TarEntry) :
    untarEntry (m.host fs k) (m.tempDir k) [configDumpFile] files e =
      if clean e.name ≠ configDumpFile then (files, .ok ())
      else if e.typeflag ≠ typeReg then (files, .error (.notRegular e.name e.typeflag))
      else if e.data.length ≤ maxExtractedFileSize then
        (files.insert (m.dumpPath k) (e.data.take (maxExtractedFileSize + 1)),
          match e.readErr with
          | some msg => .error (.host msg)
          | none => .ok ())
      else (files.insert (m.dumpPath k) (e.data.take (maxExtractedFileSize + 1)),
        .error (.tooLarge e.name)) := by
  unfold untarEntry
  by_cases hname : clean e.name = configDumpFile
  · have hinside := dumpPath_inside m k
    have hpath : join (m.tempDir k) configDumpFile = m.dumpPath k := rfl
    by_cases htype : e.typeflag = typeReg
    · by_cases hsize : e.data.length ≤ maxExtractedFileSize
      · cases hread : e.readErr with
        | some msg => simp [hname, htype, hsize, hread, hinside, hpath, copyEntry, Machine.host]
        | none => simp [hname, htype, hsize, hread, hinside, hpath, copyEntry, Machine.host]
      · simp [hname, htype, hsize, hinside, hpath, copyEntry, Machine.host]
    · simp [hname, htype]
  · simp [hname]

/-- The loop over the entries: the same errors, and the same content under the path. -/
theorem iterateEntries_host (m : Machine) (fs : FS) (k : ℕ) (es : List TarEntry)
    (err : Option String) (files : Extracted) :
    (match iterateEntries (untarEntry (m.host fs k) (m.tempDir k) [configDumpFile]) es err
      files with
      | (_, .error e) => .error e
      | (files', .ok ()) => .ok (files'.lookup (m.dumpPath k)))
      = configDump es err (files.lookup (m.dumpPath k)) := by
  induction es generalizing files with
  | nil => cases err <;> rfl
  | cons e es ih =>
    rw [iterateEntries, untarEntry_host, configDump]
    split_ifs with hname htype hsize
    · exact ih files
    · rfl
    · cases e.readErr with
      | some msg => rfl
      | none =>
        dsimp only
        rw [ih, AList.lookup_insert]
    · rfl

/-- The reading as a function of the archive and of the path `config.dump` is extracted to. -/
def Machine.readImage (m : Machine) (fs : FS) (path dump : String) : Except ReadError String :=
  match fs.openArchive path with
  | .error msg => .error (.baseImage (.unpacking (.host msg)))
  | .ok stream =>
    match configDump stream.entries stream.err none with
    | .error e => .error (.baseImage (.unpacking e))
    | .ok none => .error (.baseImage (.dump ("open " ++ dump ++ ": no such file or directory")))
    | .ok (some data) =>
      match m.rootfsImageName data with
      | .error e => .error (.baseImage (.dump ("failed to unmarshal " ++ dump ++ ": " ++ e)))
      | .ok image =>
        if image = "" then .error (.noRootfsImageName path) else .ok image

theorem readBaseImage_host (path : String) :
    readBaseImage (m.host fs k) path = m.readImage fs path (m.dumpPath k) := by
  have hwant : [configDumpFile].map clean = [configDumpFile] := by decide
  have hopen : (m.host fs k).openArchive path = fs.openArchive path := rfl
  have htemp : (m.host fs k).mkdirTemp = .ok (m.tempDir k) := rfl
  have hpath : join (m.tempDir k) configDumpFile = m.dumpPath k := rfl
  unfold readBaseImage readDump untarFiles Machine.readImage
  rw [htemp, hopen]
  dsimp only
  cases fs.openArchive path with
  | error msg => rfl
  | ok stream =>
    have hloop := iterateEntries_host m fs k stream.entries stream.err ∅
    rw [AList.lookup_empty] at hloop
    dsimp only
    rw [clean_tempDir, hwant, hpath, ← hloop]
    -- what the loop left decides both sides
    generalize iterateEntries (untarEntry (m.host fs k) (m.tempDir k) [configDumpFile])
      stream.entries stream.err ∅ = left
    obtain ⟨files, result⟩ := left
    cases result with
    | error e => rfl
    | ok u =>
      dsimp only
      cases files.lookup (m.dumpPath k) with
      | none => rfl
      | some data =>
        dsimp only [Machine.host]
        cases m.rootfsImageName data with
        | error e => rfl
        | ok image => rfl

/-- A reading whose outcome is the same for every path, and no error of `config.dump`. -/
def Plain (x : Except ReadError String) : Prop := ∀ msg, x ≠ .error (.baseImage (.dump msg))

/-- The path does not matter, or the reading fails with a text that names it. -/
theorem readImage_cases (m : Machine) (fs : FS) (path : String) :
    (∃ x, Plain x ∧ ∀ dump, m.readImage fs path dump = x) ∨
    ∃ text : String → String, Function.Injective text ∧
      ∀ dump, m.readImage fs path dump = .error (.baseImage (.dump (text dump))) := by
  unfold Machine.readImage
  cases fs.openArchive path with
  | error msg => exact .inl ⟨_, fun _ => by simp, fun _ => rfl⟩
  | ok stream =>
    dsimp only
    cases configDump stream.entries stream.err none with
    | error e => exact .inl ⟨_, fun _ => by simp, fun _ => rfl⟩
    | ok found =>
      cases found with
      | none =>
        refine .inr ⟨fun dump => "open " ++ dump ++ ": no such file or directory", ?_,
          fun _ => rfl⟩
        intro dump dump' h
        simpa [← String.toList_inj] using h
      | some data =>
        dsimp only
        cases m.rootfsImageName data with
        | error e =>
          refine .inr ⟨fun dump => "failed to unmarshal " ++ dump ++ ": " ++ e, ?_, fun _ => rfl⟩
          intro dump dump' h
          simpa [← String.toList_inj] using h
        | ok image =>
          dsimp only
          split_ifs
          · exact .inl ⟨_, fun _ => by simp, fun _ => rfl⟩
          · exact .inl ⟨_, fun _ => by simp, fun _ => rfl⟩

end Archive

/-! ### Rendering -/

variable {path : String}

section Rendering
variable (m : Machine) (fs : FS)

/-- The outcome `f` of a call depends neither on the temporary directory nor on anything but the
    archives at `paths`, and it is no error of `config.dump`. -/
def Readable {α : Type} (paths : List String) (f : FS → ℕ → Except RenderError α) : Prop :=
  ∃ x : Except RenderError α, (∀ c msg, x ≠ .error (.baseImage c (.baseImage (.dump msg)))) ∧
    ∀ fs' k, (∀ p ∈ paths, fs'.lookup p = fs.lookup p) → f fs' k = x

/-- The outcome `f` of a call is an error of `config.dump`, whose text names the temporary file. -/
def Unreadable {α : Type} (paths : List String) (f : FS → ℕ → Except RenderError α) : Prop :=
  ∃ (c : String) (text : String → String), Function.Injective text ∧
    ∀ fs' k, (∀ p ∈ paths, fs'.lookup p = fs.lookup p) →
      f fs' k = .error (.baseImage c (.baseImage (.dump (text (m.dumpPath k)))))

theorem readImage_congr {fs' : FS} (h : fs'.lookup path = fs.lookup path) (dump : String) :
    m.readImage fs' path dump = m.readImage fs path dump := by
  unfold Machine.readImage FS.openArchive
  rw [h]

theorem fillImage_temp (containers : List (Container ρ)) (idx : ℕ) (cp : ContainerCheckpoint) :
    Readable fs [cp.path] (fun fs k => fillImage (m.host fs k) containers idx cp) ∨
    Unreadable m fs [cp.path] (fun fs k => fillImage (m.host fs k) containers idx cp) := by
  unfold fillImage
  cases containers[idx]? with
  | none => exact .inl ⟨_, fun _ _ => by simp, fun _ _ _ => rfl⟩
  | some c =>
    dsimp only
    split_ifs with himage
    · have hread : ∀ fs' k, (∀ p ∈ [cp.path], fs'.lookup p = fs.lookup p) →
          readBaseImage (m.host fs' k) cp.path = m.readImage fs cp.path (m.dumpPath k) := by
        intro fs' k hfs
        rw [readBaseImage_host, readImage_congr m fs (hfs _ (List.mem_singleton.mpr rfl))]
      rcases readImage_cases m fs cp.path with ⟨x, hplain, hx⟩ | ⟨text, hinj, htext⟩
      · left
        cases x with
        | error e =>
          refine ⟨.error (.baseImage cp.container e), fun c' msg heq => ?_, fun fs' k hfs => ?_⟩
          · simp only [Except.error.injEq, RenderError.baseImage.injEq] at heq
            exact hplain msg (heq.2 ▸ rfl)
          · simp only [hread fs' k hfs, hx]
        | ok image =>
          refine ⟨.ok (containers.set idx { c with image }), fun _ _ => by simp,
            fun fs' k hfs => ?_⟩
          simp only [hread fs' k hfs, hx]
      · refine .inr ⟨cp.container, text, hinj, fun fs' k hfs => ?_⟩
        simp only [hread fs' k hfs, htext]
    · exact .inl ⟨_, fun _ _ => by simp, fun _ _ _ => rfl⟩

theorem renderCheckpoint_temp (annotations : StringMap) (containers : List (Container ρ))
    (cp : ContainerCheckpoint) :
    Readable fs [cp.path] (fun fs k => renderCheckpoint (m.host fs k) annotations containers cp) ∨
    Unreadable m fs [cp.path]
      (fun fs k => renderCheckpoint (m.host fs k) annotations containers cp) := by
  unfold renderCheckpoint
  cases containerIndex containers cp.container with
  | none => exact .inl ⟨_, fun _ _ => by simp, fun _ _ _ => rfl⟩
  | some idx =>
    dsimp only
    rcases fillImage_temp m fs containers idx cp with ⟨x, hplain, hx⟩ | ⟨c, text, hinj, htext⟩
    · left
      cases x with
      | error e =>
        refine ⟨.error e, fun c msg heq => hplain c msg (Except.error.inj heq ▸ rfl),
          fun fs' k hfs => ?_⟩
        simp only [hx fs' k hfs]
      | ok containers' =>
        exact ⟨.ok
          (annotations.insert ( restoreCheckpointPathAnnotationPrefix ++ cp.container) cp.path,
          containers'), fun _ _ => by simp, fun fs' k hfs => by simp only [hx fs' k hfs]⟩
    · refine .inr ⟨c, text, hinj, fun fs' k hfs => ?_⟩
      simp only [htext fs' k hfs]

/-- The rendering loop. -/
theorem renderCheckpoints_temp (cps : List ContainerCheckpoint) (annotations : StringMap)
    (containers : List (Container ρ)) :
    Readable fs (cps.map ContainerCheckpoint.path)
      (fun fs k => renderCheckpoints (m.host fs k) annotations containers cps) ∨
    Unreadable m fs (cps.map ContainerCheckpoint.path)
      (fun fs k => renderCheckpoints (m.host fs k) annotations containers cps) := by
  induction cps generalizing annotations containers with
  | nil => exact .inl ⟨_, fun _ _ => by simp, fun _ _ _ => rfl⟩
  | cons cp cps ih =>
    -- what agrees on all paths agrees on the first and on the rest
    have hhead : ∀ fs' : FS, (∀ p ∈ (cp :: cps).map ContainerCheckpoint.path,
        fs'.lookup p = fs.lookup p) → ∀ p ∈ [cp.path], fs'.lookup p = fs.lookup p := by
      intro fs' hfs p hp
      exact hfs p (by simp [List.mem_singleton.mp hp])
    have htail : ∀ fs' : FS, (∀ p ∈ (cp :: cps).map ContainerCheckpoint.path,
        fs'.lookup p = fs.lookup p) → ∀ p ∈ cps.map ContainerCheckpoint.path,
        fs'.lookup p = fs.lookup p :=
      fun fs' hfs p hp => hfs p (List.mem_cons_of_mem _ hp)
    simp only [renderCheckpoints]
    rcases renderCheckpoint_temp m fs annotations containers cp with
      ⟨x, hplain, hx⟩ | ⟨c, text, hinj, htext⟩
    · cases x with
      | error e =>
        refine .inl ⟨.error e, fun c msg heq => hplain c msg (Except.error.inj heq ▸ rfl),
          fun fs' k hfs => ?_⟩
        simp only [hx fs' k (hhead fs' hfs)]
      | ok next =>
        obtain ⟨annotations', containers'⟩ := next
        rcases ih annotations' containers' with ⟨y, hyplain, hy⟩ | ⟨c, text, hinj, htext⟩
        · refine .inl ⟨y, hyplain, fun fs' k hfs => ?_⟩
          simp only [hx fs' k (hhead fs' hfs)]
          exact hy fs' k (htail fs' hfs)
        · refine .inr ⟨c, text, hinj, fun fs' k hfs => ?_⟩
          simp only [hx fs' k (hhead fs' hfs)]
          exact htext fs' k (htail fs' hfs)
    · refine .inr ⟨c, text, hinj, fun fs' k hfs => ?_⟩
      simp only [htext fs' k (hhead fs' hfs)]

/-- **Rendering.**  It depends on the archives alone, or it fails with a text that names the file in
    the temporary directory. -/
theorem renderPod_temp (r : PodRestoreReconciler) (pr : PodRestore ρ) :
    Readable fs (pr.checkpoints.map ContainerCheckpoint.path)
      (fun fs k => renderPod r (m.host fs k) pr) ∨
    Unreadable m fs (pr.checkpoints.map ContainerCheckpoint.path)
      (fun fs k => renderPod r (m.host fs k) pr) := by
  unfold renderPod
  rcases renderCheckpoints_temp m fs pr.checkpoints (pr.template.annotations.getD ∅)
    pr.template.spec.containers with ⟨x, hplain, hx⟩ | ⟨c, text, hinj, htext⟩
  · left
    cases x with
    | error e =>
      refine ⟨.error e, fun c msg heq => hplain c msg (Except.error.inj heq ▸ rfl),
        fun fs' k hfs => ?_⟩
      simp only [hx fs' k hfs]
    | ok next =>
      obtain ⟨annotations', containers'⟩ := next
      cases hscheme : r.scheme with
      | error msg =>
        exact ⟨.error (.owner msg), fun _ _ => by simp,
          fun fs' k hfs => by simp only [hx fs' k hfs]⟩
      | ok kind =>
        refine ⟨.ok {
          name := pr.name
          ns := pr.ns
          annotations := annotations'
          labels := (pr.template.labels.getD ∅).insert podRestoreLabel pr.name
          spec := { pr.template.spec with nodeName := pr.targetNode, containers := containers' }
          controller := some { kind, name := pr.name } }, fun _ _ => by simp, fun fs' k hfs => ?_⟩
        simp only [hx fs' k hfs]
  · refine .inr ⟨c, text, hinj, fun fs' k hfs => ?_⟩
    simp only [htext fs' k hfs]

end Rendering

/-! ### Where rendering stops -/

variable {containers containers' : List (Container ρ)} {cp : ContainerCheckpoint}

section Stops
variable {m : Machine} {fs : FS} {k : ℕ}

/-- The archive can be read, and `config.dump` is missing in it or cannot be decoded. -/
def BadDump (m : Machine) (fs : FS) (path : String) : Prop :=
  ∃ stream found, fs.openArchive path = .ok stream ∧
    configDump stream.entries stream.err none = .ok found ∧
    ∀ data, found = some data → ∃ e, m.rootfsImageName data = .error e

/-- The archive gives a base image. -/
def HasImage (m : Machine) (fs : FS) (path : String) : Prop :=
  ∃ stream data image, fs.openArchive path = .ok stream ∧
    configDump stream.entries stream.err none = .ok (some data) ∧
    m.rootfsImageName data = .ok image ∧ image ≠ ""

/-- The container of that name has no image. -/
def Imageless (containers : List (Container ρ)) (name : String) : Prop :=
  ∃ c, containers.find? (fun c => c.name == name) = some c ∧ c.image = ""

/-- The entry's image is read from its archive: no entry before it is for the same container, and
    the template leaves the image empty. -/
def NeedsImage (containers : List (Container ρ)) (before : List ContainerCheckpoint)
    (cp : ContainerCheckpoint) : Prop :=
  cp.container ∉ before.map ContainerCheckpoint.container ∧ Imageless containers cp.container

/-- The first archive that does not give the image it has to give is one with a bad
    `config.dump`. -/
def StopsAtDump (m : Machine) (fs : FS) (containers : List (Container ρ))
    (cps : List ContainerCheckpoint) : Prop :=
  ∃ before cp after, cps = before ++ cp :: after ∧ NeedsImage containers before cp ∧
    BadDump m fs cp.path ∧
    ∀ before' cp' after', before = before' ++ cp' :: after' → NeedsImage containers before' cp' →
      HasImage m fs cp'.path

theorem readImage_ok {dump image : String} (h : m.readImage fs path dump = .ok image) :
    HasImage m fs path ∧ image ≠ "" := by
  unfold Machine.readImage at h
  cases hopen : fs.openArchive path with
  | error msg => simp [hopen] at h
  | ok stream =>
    simp only [hopen] at h
    cases hdump : configDump stream.entries stream.err none with
    | error e => simp [hdump] at h
    | ok found =>
      cases found with
      | none => simp [hdump] at h
      | some data =>
        simp only [hdump] at h
        cases himage : m.rootfsImageName data with
        | error e => simp [himage] at h
        | ok found =>
          simp only [himage] at h
          split_ifs at h with hempty
          obtain rfl := Except.ok.inj h
          exact ⟨⟨stream, data, found, hopen, hdump, himage, hempty⟩, hempty⟩

theorem readImage_of_hasImage (h : HasImage m fs path) (dump : String) :
    ∃ image, m.readImage fs path dump = .ok image := by
  obtain ⟨stream, data, image, hopen, hdump, himage, hne⟩ := h
  exact ⟨image, by simp [Machine.readImage, hopen, hdump, himage, hne]⟩

theorem readImage_dump_iff (dump : String) :
    (∃ msg, m.readImage fs path dump = .error (.baseImage (.dump msg))) ↔ BadDump m fs path := by
  constructor
  · rintro ⟨msg, h⟩
    unfold Machine.readImage at h
    cases hopen : fs.openArchive path with
    | error msg => simp [hopen] at h
    | ok stream =>
      simp only [hopen] at h
      cases hdump : configDump stream.entries stream.err none with
      | error e => simp [hdump] at h
      | ok found =>
        refine ⟨stream, found, hopen, hdump, ?_⟩
        rintro data rfl
        simp only [hdump] at h
        cases himage : m.rootfsImageName data with
        | error e => exact ⟨e, rfl⟩
        | ok image =>
          simp only [himage] at h
          split_ifs at h
          exact absurd h (by simp)
  · rintro ⟨stream, found, hopen, hdump, hbad⟩
    cases found with
    | none => exact ⟨_, by simp only [Machine.readImage, hopen, hdump]; rfl⟩
    | some data =>
      obtain ⟨e, he⟩ := hbad data rfl
      exact ⟨_, by simp only [Machine.readImage, hopen, hdump, he]; rfl⟩

/-- Filling in an image changes the first container of the name. -/
theorem find?_set {idx : ℕ} {name : String} {c : Container ρ}
    (hidx : containerIndex containers name = some idx) (hc : containers[idx]? = some c)
    (image : String) (x : String) :
    (containers.set idx { c with image }).find? (fun c => c.name == x)
      = if x = name then some { c with image } else containers.find? (fun c => c.name == x) := by
  induction containers generalizing idx with
  | nil => exact absurd hidx (by simp [containerIndex])
  | cons y ys ih =>
    unfold containerIndex at hidx
    rw [List.findIdx?_cons] at hidx
    by_cases hy : y.name = name
    · obtain rfl : 0 = idx := by simpa [hy] using hidx
      obtain rfl : y = c := by simpa using hc
      by_cases hx : x = name
      · simp [hx, hy]
      · have hne : ¬ name = x := fun h => hx h.symm
        simp [hx, hy, hne]
    · rw [if_neg (by simpa using hy), Option.map_eq_some_iff] at hidx
      obtain ⟨j, hj, rfl⟩ := hidx
      have hrest := ih hj (by simpa using hc)
      have hne : (y.name == name) = false := by simpa using hy
      rw [List.set_cons_succ, List.find?_cons, List.find?_cons, hrest]
      by_cases hx : x = name
      · simp [hx, hne]
      · simp [hx]

theorem find?_containerIndex {idx : ℕ} {name : String}
    (h : containerIndex containers name = some idx) :
    ∃ c, containers[idx]? = some c ∧ containers.find? (fun c => c.name == name) = some c := by
  obtain ⟨hlt, hname, hbefore⟩ := List.findIdx?_eq_some_iff_getElem.mp h
  refine ⟨containers[idx], List.getElem?_eq_getElem hlt, ?_⟩
  rw [List.find?_eq_some_iff_getElem]
  exact ⟨hname, idx, hlt, rfl, fun j hj => by simpa using hbefore j hj⟩

/-- After a turn of the loop its container has an image; the others are as they were. -/
theorem renderCheckpoint_imageless {annotations annotations' : StringMap}
    (h : renderCheckpoint (m.host fs k) annotations containers cp = .ok (annotations', containers'))
    (x : String) : Imageless containers' x ↔ x ≠ cp.container ∧ Imageless containers x := by
  unfold renderCheckpoint at h
  cases hidx : containerIndex containers cp.container with
  | none => simp [hidx] at h
  | some idx =>
    obtain ⟨c, hc, hfind⟩ := find?_containerIndex hidx
    by_cases himage : c.image = ""
    · cases hread : readBaseImage (m.host fs k) cp.path with
      | error e => simp [hidx, fillImage, hc, himage, hread] at h
      | ok image =>
        obtain ⟨-, rfl⟩ : _ ∧ containers.set idx { c with image } = containers' := by
          simpa [hidx, fillImage, hc, himage, hread] using h
        rw [readBaseImage_host] at hread
        have hne := (readImage_ok hread).2
        unfold Imageless
        rw [find?_set hidx hc]
        by_cases hx : x = cp.container
        · simp [hx, hne]
        · simp [hx]
    · obtain ⟨-, rfl⟩ : _ ∧ containers = containers' := by
        simpa [hidx, fillImage, hc, himage] using h
      constructor
      · rintro ⟨c', hc', hempty⟩
        refine ⟨?_, c', hc', hempty⟩
        rintro rfl
        exact himage (Option.some.inj (hfind.symm.trans hc') ▸ hempty)
      · exact fun h => h.2

theorem renderCheckpoint_names {host : Host} {annotations annotations' : StringMap}
    (h : renderCheckpoint host annotations containers cp = .ok (annotations', containers')) :
    containers'.map Container.name = containers.map Container.name := by
  unfold renderCheckpoint fillImage at h
  cases hidx : containerIndex containers cp.container with
  | none => simp [hidx] at h
  | some idx =>
    obtain ⟨c, hc, -⟩ := find?_containerIndex hidx
    simp only [hidx, hc] at h
    split_ifs at h with himage
    · cases hread : readBaseImage host cp.path with
      | error e => simp [hread] at h
      | ok image =>
        simp only [hread, Except.ok.injEq, Prod.mk.injEq] at h
        obtain ⟨hlt, rfl⟩ := List.getElem?_eq_some_iff.mp hc
        rw [← h.2, List.map_set, ← List.getElem_map Container.name (h := by simpa using hlt)]
        exact List.set_getElem_self _
    · simp only [Except.ok.injEq, Prod.mk.injEq] at h
      rw [← h.2]

/-- An archive that does not give its image is where rendering stops. -/
theorem stopsAtDump_here (hcp : Imageless containers cp.container) (hno : ¬ HasImage m fs cp.path)
    (cps : List ContainerCheckpoint) :
    StopsAtDump m fs containers (cp :: cps) ↔ BadDump m fs cp.path := by
  constructor
  · rintro ⟨before, x, after, heq, hx, hbad, hbefore⟩
    cases before with
    | nil =>
      obtain ⟨rfl, -⟩ := List.cons.inj heq
      exact hbad
    | cons y before =>
      obtain ⟨rfl, -⟩ := List.cons.inj heq
      exact absurd (hbefore [] cp before rfl ⟨by simp, hcp⟩) hno
  · intro hbad
    exact ⟨[], cp, cps, rfl, ⟨by simp, hcp⟩, hbad, fun before' cp' after' heq _ =>
      absurd heq (by simp)⟩

/-- Behind an entry whose container has its image, rendering stops where it stops for the rest. -/
theorem stopsAtDump_next
    (h : ∀ x, Imageless containers' x ↔ x ≠ cp.container ∧ Imageless containers x)
    (hcp : Imageless containers cp.container → HasImage m fs cp.path ∧ ¬ BadDump m fs cp.path)
    (cps : List ContainerCheckpoint) :
    StopsAtDump m fs containers (cp :: cps) ↔ StopsAtDump m fs containers' cps := by
  -- an image is needed behind the entry as it is needed in the containers after it
  have hneeds : ∀ before x, NeedsImage containers (cp :: before) x ↔
      NeedsImage containers' before x := by
    intro before x
    unfold NeedsImage
    rw [h, List.map_cons, List.mem_cons]
    tauto
  constructor
  · rintro ⟨before, x, after, heq, hx, hbad, hbefore⟩
    cases before with
    | nil =>
      obtain ⟨rfl, -⟩ := List.cons.inj heq
      exact absurd hbad (hcp hx.2).2
    | cons y before =>
      obtain ⟨rfl, rfl⟩ := List.cons.inj heq
      refine ⟨before, x, after, rfl, (hneeds before x).mp hx, hbad,
        fun before' cp' after' heq hcp' => ?_⟩
      exact hbefore (cp :: before') cp' after' (by rw [heq]; rfl) ((hneeds before' cp').mpr hcp')
  · rintro ⟨before, x, after, rfl, hx, hbad, hbefore⟩
    refine ⟨cp :: before, x, after, rfl, (hneeds before x).mpr hx, hbad,
      fun before' cp' after' heq hcp' => ?_⟩
    cases before' with
    | nil =>
      obtain ⟨rfl, -⟩ := List.cons.inj heq
      exact (hcp hcp'.2).1
    | cons y before' =>
      obtain ⟨rfl, rfl⟩ := List.cons.inj heq
      exact hbefore before' cp' after' rfl ((hneeds before' cp').mp hcp')

/-- A turn of the loop fails on `config.dump`, fails otherwise, or succeeds. -/
theorem renderCheckpoint_cases (annotations : StringMap)
    (hdefined : cp.container ∈ containers.map Container.name) :
    Imageless containers cp.container ∧
        (∃ e, renderCheckpoint (m.host fs k) annotations containers cp
            = .error (.baseImage cp.container e) ∧
          ((∃ msg, e = .baseImage (.dump msg)) ↔ BadDump m fs cp.path)) ∧
        ¬ HasImage m fs cp.path ∨
      (Imageless containers cp.container → HasImage m fs cp.path ∧ ¬ BadDump m fs cp.path) ∧
        ∃ next, renderCheckpoint (m.host fs k) annotations containers cp = .ok next := by
  obtain ⟨idx, hidx⟩ : ∃ idx, containerIndex containers cp.container = some idx := by
    obtain ⟨c, hc, hname⟩ := List.mem_map.mp hdefined
    refine Option.isSome_iff_exists.mp ?_
    rw [containerIndex, List.findIdx?_isSome, List.any_eq_true]
    exact ⟨c, hc, by simpa using hname⟩
  obtain ⟨c, hc, hfind⟩ := find?_containerIndex hidx
  -- the archive is read only for a container without an image
  by_cases himage : c.image = ""
  · have hread : readBaseImage (m.host fs k) cp.path = m.readImage fs cp.path (m.dumpPath k) :=
      readBaseImage_host _
    cases hout : m.readImage fs cp.path (m.dumpPath k) with
    | error e =>
      rw [hout] at hread
      refine .inl ⟨⟨c, hfind, himage⟩, ⟨e, by simp [renderCheckpoint, hidx, fillImage, hc, himage,
        hread], ?_⟩, fun hhas => ?_⟩
      · rw [← readImage_dump_iff (m.dumpPath k), hout]
        simp
      · obtain ⟨image, hok⟩ := readImage_of_hasImage hhas (m.dumpPath k)
        exact absurd (hout.symm.trans hok) (by simp)
    | ok image =>
      rw [hout] at hread
      refine .inr ⟨fun _ => ⟨(readImage_ok hout).1, fun hbad => ?_⟩,
        _, by simp only [renderCheckpoint, hidx, fillImage, hc, himage, hread, if_true]; rfl⟩
      obtain ⟨msg, hmsg⟩ := (readImage_dump_iff (m.dumpPath k)).mpr hbad
      exact absurd (hout.symm.trans hmsg) (by simp)
  · refine .inr ⟨?_, _, by simp only [renderCheckpoint, hidx, fillImage, hc, himage, if_false]; rfl⟩
    rintro ⟨c', hc', hempty⟩
    exact absurd (Option.some.inj (hfind.symm.trans hc') ▸ hempty) himage

/-- The loop fails on `config.dump` where the archives say so. -/
theorem renderCheckpoints_dump_iff {cps : List ContainerCheckpoint} (annotations : StringMap)
    (hdefined : ∀ cp ∈ cps, cp.container ∈ containers.map Container.name) :
    (∃ c msg, renderCheckpoints (m.host fs k) annotations containers cps
      = .error (.baseImage c (.baseImage (.dump msg)))) ↔ StopsAtDump m fs containers cps := by
  induction cps generalizing annotations containers with
  | nil =>
    constructor
    · rintro ⟨c, msg, h⟩
      exact absurd h (by simp [renderCheckpoints])
    · rintro ⟨before, cp, after, heq, -⟩
      exact absurd heq (by simp)
  | cons cp cps ih =>
    rcases renderCheckpoint_cases (m := m) (k := k) annotations (hdefined cp (by simp)) with
      ⟨hcp, ⟨e, he, hdump⟩, hno⟩ | ⟨hcp, ⟨annotations', containers'⟩, hnext⟩
    · rw [stopsAtDump_here hcp hno, ← hdump]
      simp [renderCheckpoints, he]
    · rw [stopsAtDump_next (renderCheckpoint_imageless hnext) hcp,
        ← ih annotations' (fun cp' hcp' => ?_)]
      · simp only [renderCheckpoints, hnext]
      · rw [renderCheckpoint_names hnext]
        exact hdefined cp' (List.mem_cons_of_mem _ hcp')

/-- **Where rendering stops.**  The rendering of a valid spec fails on `config.dump` if and only if
    the first archive that does not give the image it has to give has a bad one. -/
theorem renderPod_dump_iff {r : PodRestoreReconciler} {pr : PodRestore ρ}
    (hvalid : validateSpec r pr = .ok ()) :
    (∃ c msg, renderPod r (m.host fs k) pr = .error (.baseImage c (.baseImage (.dump msg)))) ↔
      StopsAtDump m fs pr.template.spec.containers pr.checkpoints := by
  rw [← renderCheckpoints_dump_iff (pr.template.annotations.getD ∅) (validateSpec_defined r hvalid)]
  unfold renderPod
  cases renderCheckpoints (m.host fs k) (pr.template.annotations.getD ∅)
    pr.template.spec.containers pr.checkpoints with
  | error e => simp
  | ok next =>
    cases r.scheme with
    | error msg => simp
    | ok kind => simp

end Stops

end CheckpointRestore.Restore
