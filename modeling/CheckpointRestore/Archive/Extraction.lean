import CheckpointRestore.Archive

namespace CheckpointRestore

open Go Go.Filepath

/-!
# Extraction — what `UntarFiles` writes

The entries of the archive are anybody's: names, types, sizes and duplicates are arbitrary.

* `Inside` — a path is lexically inside a directory: the directory's elements, and more;
* `untarEntry_cases` — what one entry can do;
* `untarFiles_confined` — the files are inside the directory and have requested names, a success
  leaves at every path the content of the last entry that goes there, and an entry that is no
  regular file, is too large or escapes makes the extraction fail.
-/

/-! ### Paths -/

/-- `p` is lexically inside the absolute directory `D`. -/
def Inside (D p : String) : Prop :=
  ∃ elems rest, (∀ c ∈ elems ++ rest, Normal c) ∧ rest ≠ [] ∧ D.toList = render true elems ∧
    p.toList = render true (elems ++ rest)

theorem clean_abs {d : String} (h : isAbs d = true) :
    ∃ elems, (∀ c ∈ elems, Normal c) ∧ (clean d).toList = render true elems := by
  have hroot : isRooted (cleanChars d.toList) = true := by
    rw [cleanChars, show isRooted d.toList = true from h]
    exact isRooted_render_true _
  rw [clean, String.toList_ofList]
  exact cleanChars_abs hroot

/-- The guard of `UntarFiles`, for a target other than the directory itself. -/
theorem inside_of_hasPrefix {dest name : String} (habs : isAbs dest = true)
    (h : Strings.hasPrefix (join (clean dest) name) (clean dest ++ "/") = true) :
    Inside (clean dest) (join (clean dest) name) := by
  obtain ⟨elems, helems, hD⟩ := clean_abs habs
  have hne : clean dest ≠ "" := by
    intro h
    rw [h] at hD
    exact absurd hD (by simp [render])
  have hjoin : join (clean dest) name = clean (clean dest ++ "/" ++ name) := by
    rw [join, if_pos hne]
  have habs' : isAbs (clean dest ++ "/" ++ name) = true := by
    simp [isAbs, isRooted, hD, render]
  obtain ⟨elems', helems', hp⟩ := clean_abs habs'
  rw [← hjoin] at hp
  obtain ⟨t, ht⟩ := Strings.hasPrefix_iff.mp h
  have heq : render true elems ++ '/' :: t.toList = render true elems' := by
    rw [← hp, ht, String.toList_append, String.toList_append, ← hD, List.append_assoc]
    rfl
  obtain ⟨rest, hrest, rfl⟩ := elems_of_render_append helems helems' heq
  exact ⟨elems, rest, helems', hrest, hD, hp⟩

/-! ### One entry -/

section Entries
variable {host : Host} {D : String} {want : List String}

/-- A file may be written there: the guard of `UntarFiles` lets the path pass, and the file can be
    created. -/
def Allowed (host : Host) (D p : String) : Prop :=
  (p = D ∨ Strings.hasPrefix p (D ++ "/") = true) ∧ host.create p = none

/-- Copying an entry into its file. -/
def writeEntry (host : Host) (target : String) (files : Extracted) (e : TarEntry) :
    Extracted × Except EntryError Unit :=
  (files.insert target (copyEntry host target e).1,
    match (copyEntry host target e).2, host.close target with
    | some msg, _ => .error (.host msg)
    | none, some msg => .error (.host msg)
    | none, none =>
      if (copyEntry host target e).1.length > maxExtractedFileSize then .error (.tooLarge e.name)
      else .ok ())

theorem untarEntry_open (files : Extracted) {e : TarEntry} (hwant : clean e.name ∈ want)
    (htype : e.typeflag = typeReg)
    (hguard : ¬ (join D (clean e.name) ≠ D ∧
      (!Strings.hasPrefix (join D (clean e.name)) (D ++ "/")) = true))
    (hmkdir : host.mkdirAll (dir (join D (clean e.name))) = none)
    (hcreate : host.create (join D (clean e.name)) = none) :
    untarEntry host D want files e = writeEntry host (join D (clean e.name)) files e := by
  have hcontains : ¬ (!want.contains (clean e.name)) = true := by simpa using hwant
  unfold untarEntry writeEntry
  dsimp only
  rw [if_neg hcontains, if_neg (not_not.mpr htype), if_neg hguard, hmkdir, hcreate]
  dsimp only
  cases (copyEntry host (join D (clean e.name)) e).2 with
  | some msg => rfl
  | none =>
    cases host.close (join D (clean e.name)) with
    | some msg => rfl
    | none =>
      dsimp only
      split_ifs <;> rfl

/-- A file that is written holds the whole entry, or the extraction fails. -/
theorem writeEntry_cases (host : Host) (target : String) (files : Extracted) (e : TarEntry) :
    (∃ x, (writeEntry host target files e).2 = .error x) ∨
    e.data.length ≤ maxExtractedFileSize ∧
      writeEntry host target files e = (files.insert target e.data, .ok ()) := by
  unfold writeEntry copyEntry
  cases host.write target with
  | some msg => exact .inl ⟨.host msg, rfl⟩
  | none =>
    by_cases hsize : e.data.length ≤ maxExtractedFileSize
    · have htake : e.data.take (maxExtractedFileSize + 1) = e.data :=
        List.take_of_length_le (by omega)
      have hlen : ¬ e.data.length > maxExtractedFileSize := by omega
      dsimp only
      rw [if_pos hsize, htake]
      cases e.readErr with
      | some msg => exact .inl ⟨.host msg, rfl⟩
      | none =>
        cases host.close target with
        | some msg => exact .inl ⟨.host msg, rfl⟩
        | none =>
          dsimp only
          rw [if_neg hlen]
          exact .inr ⟨hsize, rfl⟩
    · -- one byte past the limit is copied, and counted
      have hlen : (e.data.take (maxExtractedFileSize + 1)).length > maxExtractedFileSize := by
        rw [List.length_take]
        omega
      dsimp only
      rw [if_neg hsize]
      cases host.close target with
      | some msg => exact .inl ⟨.host msg, rfl⟩
      | none =>
        dsimp only
        rw [if_pos hlen]
        exact .inl ⟨.tooLarge e.name, rfl⟩

variable (host D want) in
/-- What one entry can do: nothing, if its name is not requested; fail, having written at most its
    own file; or write its content, if it is a regular file that is small enough. -/
theorem untarEntry_cases (files : Extracted) (e : TarEntry) :
    clean e.name ∉ want ∧ untarEntry host D want files e = (files, .ok ()) ∨
    clean e.name ∈ want ∧
      ((∃ files' x, untarEntry host D want files e = (files', .error x) ∧
          (files' = files ∨ Allowed host D (join D (clean e.name)) ∧
            ∃ data, files' = files.insert (join D (clean e.name)) data)) ∨
        e.typeflag = typeReg ∧ e.data.length ≤ maxExtractedFileSize ∧
          Allowed host D (join D (clean e.name)) ∧
          untarEntry host D want files e
            = (files.insert (join D (clean e.name)) e.data, .ok ())) := by
  by_cases hwant : clean e.name ∈ want
  · refine .inr ⟨hwant, ?_⟩
    by_cases htype : e.typeflag = typeReg
    · by_cases hguard : join D (clean e.name) ≠ D ∧
          (!Strings.hasPrefix (join D (clean e.name)) (D ++ "/")) = true
      · exact .inl ⟨files, .escapes e.name, by simp [untarEntry, hwant, htype, hguard], .inl rfl⟩
      · cases hmkdir : host.mkdirAll (dir (join D (clean e.name))) with
        | some msg =>
          exact .inl ⟨files, .host msg,
            by simpa [untarEntry, hwant, htype, hmkdir] using hguard, .inl rfl⟩
        | none =>
          cases hcreate : host.create (join D (clean e.name)) with
          | some msg =>
            exact .inl ⟨files, .host msg,
              by simpa [untarEntry, hwant, htype, hmkdir, hcreate] using hguard, .inl rfl⟩
          | none =>
            -- past the guard and with the file created, the target is a path that may be written
            have hallowed : Allowed host D (join D (clean e.name)) := by
              refine ⟨?_, hcreate⟩
              by_contra hno
              exact hguard (by simpa using hno)
            have hopen := untarEntry_open files hwant htype hguard hmkdir hcreate
            rcases writeEntry_cases host (join D (clean e.name)) files e with
              ⟨x, hx⟩ | ⟨hsize, hok⟩
            · exact .inl ⟨_, x, hopen.trans (Prod.ext rfl hx), .inr ⟨hallowed, _, rfl⟩⟩
            · exact .inr ⟨htype, hsize, hallowed, hopen.trans hok⟩
    · exact .inl ⟨files, .notRegular e.name e.typeflag, by simp [untarEntry, hwant, htype],
        .inl rfl⟩
  · exact .inl ⟨hwant, by simp [untarEntry, hwant]⟩

/-! ### The loop -/

/-- The content of the last of the entries that are requested and go to `p`. -/
def lastAt (D : String) (want : List String) (p : String) (entries : List TarEntry) :
    Option (List UInt8) :=
  (entries.filter (fun e => decide (clean e.name ∈ want ∧ join D (clean e.name) = p))).getLast?.map
    TarEntry.data

theorem lastAt_cons (D : String) (want : List String) (p : String) (e : TarEntry)
    (es : List TarEntry) :
    lastAt D want p (e :: es) = (lastAt D want p es).or
      (if clean e.name ∈ want ∧ join D (clean e.name) = p then some e.data else none) := by
  unfold lastAt
  rw [List.filter_cons]
  by_cases h : clean e.name ∈ want ∧ join D (clean e.name) = p
  · rw [if_pos (decide_eq_true h), if_pos h, List.getLast?_cons]
    cases (es.filter
      (fun e => decide (clean e.name ∈ want ∧ join D (clean e.name) = p))).getLast? <;> rfl
  · rw [if_neg (by simpa using h), if_neg h, Option.or_none]

/-- Every file the loop has written was there or is that of a requested entry. -/
theorem mem_iterateEntries {es : List TarEntry} {err : Option String} {files : Extracted}
    {p : String} (hp : p ∈ (iterateEntries (untarEntry host D want) es err files).1) :
    p ∈ files ∨ ∃ e ∈ es, clean e.name ∈ want ∧ p = join D (clean e.name) ∧ Allowed host D p := by
  induction es generalizing files with
  | nil => cases err <;> exact .inl hp
  | cons e es ih =>
    rw [iterateEntries] at hp
    have hrest : (p ∈ files ∨ ∃ e ∈ es, clean e.name ∈ want ∧ p = join D (clean e.name) ∧
        Allowed host D p) → p ∈ files ∨ ∃ x ∈ e :: es, clean x.name ∈ want ∧
        p = join D (clean x.name) ∧ Allowed host D p := by
      rintro (hin | ⟨x, hx, h⟩)
      · exact .inl hin
      · exact .inr ⟨x, List.mem_cons_of_mem _ hx, h⟩
    rcases untarEntry_cases host D want files e with
      ⟨-, hout⟩ | ⟨hwant, ⟨files', x, hout, hfiles⟩ | ⟨-, -, hallowed, hout⟩⟩
    · rw [hout] at hp
      exact hrest (ih hp)
    · rw [hout] at hp
      -- the loop ends at an error, but a file that was written in part stays
      rcases hfiles with rfl | ⟨hallowed, data, rfl⟩
      · exact .inl hp
      · rcases (AList.mem_insert files).mp hp with rfl | hp
        · exact .inr ⟨e, List.mem_cons_self, hwant, rfl, hallowed⟩
        · exact .inl hp
    · rw [hout] at hp
      rcases ih hp with hin | hrest'
      · rcases (AList.mem_insert files).mp hin with rfl | hin
        · exact .inr ⟨e, List.mem_cons_self, hwant, rfl, hallowed⟩
        · exact .inl hin
      · exact hrest (.inr hrest')

/-- A loop that ends without an error has accepted every requested entry, and the last one
    counts. -/
theorem iterateEntries_ok {es : List TarEntry} {err : Option String} {files : Extracted}
    (h : (iterateEntries (untarEntry host D want) es err files).2 = .ok ()) :
    (∀ e ∈ es, clean e.name ∈ want → e.typeflag = typeReg ∧
      e.data.length ≤ maxExtractedFileSize ∧ Allowed host D (join D (clean e.name))) ∧
    ∀ p, (iterateEntries (untarEntry host D want) es err files).1.lookup p
      = (lastAt D want p es).or (files.lookup p) := by
  induction es generalizing files with
  | nil =>
    cases err with
    | none => exact ⟨by simp, fun p => rfl⟩
    -- an error of the tar reader after the last entry is an error of the loop
    | some msg => exact absurd h (by simp [iterateEntries])
  | cons e es ih =>
    rw [iterateEntries] at h ⊢
    rcases untarEntry_cases host D want files e with
      ⟨hnot, hout⟩ | ⟨hwant, ⟨files', x, hout, -⟩ | ⟨htype, hsize, hallowed, hout⟩⟩
    · rw [hout] at h ⊢
      obtain ⟨hall, hlookup⟩ := ih h
      refine ⟨List.forall_mem_cons.mpr ⟨fun hwant => absurd hwant hnot, hall⟩, fun p => ?_⟩
      rw [lastAt_cons, if_neg (fun h => hnot h.1), Option.or_none]
      exact hlookup p
    · rw [hout] at h
      exact absurd h (by simp)
    · rw [hout] at h ⊢
      obtain ⟨hall, hlookup⟩ := ih h
      refine ⟨List.forall_mem_cons.mpr ⟨fun _ => ⟨htype, hsize, hallowed⟩, hall⟩, fun p => ?_⟩
      dsimp only
      rw [hlookup p, lastAt_cons]
      -- an entry overwrites the file of an earlier one and is overwritten by a later one
      by_cases hp : join D (clean e.name) = p
      · rw [if_pos ⟨hwant, hp⟩, ← hp, AList.lookup_insert, Option.or_assoc]
        rfl
      · rw [if_neg (fun h => hp h.2), Option.or_none, AList.lookup_insert_ne (Ne.symm hp)]

end Entries

/-! ### Extraction -/

/-- **Extraction.**  For every archive, every absolute directory and every list of requested files:
    whatever is written is inside the directory, under the name of a requested file.  If
    `UntarFiles` succeeds, the requested entries are regular files of at most 16 MiB and every path
    holds the content of the last of them that goes there, if there is one, and nothing otherwise.
    It fails if a requested entry is no regular file, is larger, or escapes. -/
theorem untarFiles_confined (host : Host) (src dest : String) (files : List String)
    (habs : isAbs dest = true) (hdir : host.create (clean dest) ≠ none) :
    (∀ p ∈ (untarFiles host src dest files).1, Inside (clean dest) p ∧
      ∃ f ∈ files, p = join (clean dest) (clean f)) ∧
    ∀ stream, host.openArchive src = .ok stream →
      ((untarFiles host src dest files).2 = .ok () →
        (∀ e ∈ stream.entries, clean e.name ∈ files.map clean →
          e.typeflag = typeReg ∧ e.data.length ≤ maxExtractedFileSize) ∧
        ∀ p, (untarFiles host src dest files).1.lookup p
          = lastAt (clean dest) (files.map clean) p stream.entries) ∧
      ∀ e ∈ stream.entries, clean e.name ∈ files.map clean →
        (e.typeflag ≠ typeReg ∨ maxExtractedFileSize < e.data.length ∨
          ¬ Inside (clean dest) (join (clean dest) (clean e.name))) →
        ∃ x, (untarFiles host src dest files).2 = .error x := by
  -- the directory itself is no file to be created
  have hinside : ∀ name, Allowed host (clean dest) (join (clean dest) name) →
      Inside (clean dest) (join (clean dest) name) := by
    rintro name ⟨hguard, hcreate⟩
    rcases hguard with heq | hprefix
    · rw [heq] at hcreate
      exact absurd hcreate hdir
    · exact inside_of_hasPrefix habs hprefix
  refine ⟨fun p hp => ?_, fun stream hopen => ⟨fun hok => ?_, fun e he hwant hbad => ?_⟩⟩
  · unfold untarFiles at hp
    cases hopen : host.openArchive src with
    | error msg =>
      rw [hopen] at hp
      exact absurd hp (AList.notMem_empty p)
    | ok stream =>
      rw [hopen] at hp
      rcases mem_iterateEntries hp with hp | ⟨e, -, hwant, rfl, hallowed⟩
      · exact absurd hp (AList.notMem_empty p)
      · obtain ⟨f, hf, hname⟩ := List.mem_map.mp hwant
        exact ⟨hinside _ hallowed, f, hf, by rw [hname]⟩
  · unfold untarFiles at hok ⊢
    rw [hopen] at hok ⊢
    obtain ⟨hall, hlookup⟩ := iterateEntries_ok hok
    refine ⟨fun e he hwant => ⟨(hall e he hwant).1, (hall e he hwant).2.1⟩, fun p => ?_⟩
    rw [hlookup p, AList.lookup_empty, Option.or_none]
  · cases hout : (untarFiles host src dest files).2 with
    | error x => exact ⟨x, rfl⟩
    | ok u =>
      unfold untarFiles at hout
      rw [hopen] at hout
      obtain ⟨htype, hsize, hallowed⟩ := (iterateEntries_ok hout).1 e he hwant
      rcases hbad with hbad | hbad | hbad
      · exact absurd htype hbad
      · omega
      · exact absurd (hinside _ hallowed) hbad

/-- Two entries of different names that go to the same path. -/
def rootedTwice : TarStream where
  entries := [⟨"spec.dump", typeReg, [1], none⟩, ⟨"/spec.dump", typeReg, [2], none⟩]
  err := none

/-- A host with the archive and the directory `/tmp/x`, which is no file to be created. -/
def twiceHost : Host :=
  { Host.plain (fun _ => .ok rootedTwice) with
    create := fun p => if p = "/tmp/x" then some "open /tmp/x: is a directory" else none }

/-- The file is inside the directory. -/
theorem untarFiles_confined_dump :
    "/tmp/x/spec.dump" ∈ (untarFiles twiceHost "a.tar" "/tmp/x" ["spec.dump"]).1 ∧
    Inside "/tmp/x" "/tmp/x/spec.dump" := by
  have hmem : "/tmp/x/spec.dump" ∈ (untarFiles twiceHost "a.tar" "/tmp/x" ["spec.dump"]).1 := by
    decide
  have hclean : clean "/tmp/x" = "/tmp/x" := by decide
  have hinside := ((untarFiles_confined twiceHost "a.tar" "/tmp/x" ["spec.dump"] (by decide)
    (by decide)).1 _ hmem).1
  rw [hclean] at hinside
  exact ⟨hmem, hinside⟩

/-- Where two requested names join to one path, the last entry of one of them is what the other
    one holds. -/
theorem requested_names_collide :
    (untarFiles twiceHost "a.tar" "/tmp/x" ["spec.dump", "/spec.dump"]).2 = .ok () ∧
    (rootedTwice.entries.filter (fun e => clean e.name = clean "spec.dump")).getLast?.map
      TarEntry.data = some [1] ∧
    (untarFiles twiceHost "a.tar" "/tmp/x" ["spec.dump", "/spec.dump"]).1.lookup
      (join (clean "/tmp/x") (clean "spec.dump")) = some [2] := by
  decide +kernel

end CheckpointRestore
