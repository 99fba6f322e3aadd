import Mathlib
import SignatureSearch.Proofs.CreatedStore

/-! Catalogs and the index. The files that an index is made of are no catalog files, so creating an
index and writing its database never changes what is read from a catalog. -/
namespace SignatureSearch

/-! ### Names of settings files -/

namespace Path

/-- A text without slashes belongs to the last part of a path. -/
lemma splitSlashes_append (cs : List Char) {name : List Char} (hn : '/' ∉ name) :
    ∃ parts last, splitSlashes (cs ++ name) = parts ++ [last ++ name] := by
  induction cs with
  | nil =>
    refine ⟨[], [], ?_⟩
    induction name with
    | nil => rfl
    | cons c name ih =>
      rw [List.mem_cons, not_or] at hn
      have ih := ih hn.2
      simp only [List.nil_append] at ih ⊢
      rw [splitSlashes, if_neg (Ne.symm hn.1), ih]
  | cons c cs ih =>
    obtain ⟨parts, last, ih⟩ := ih
    rw [List.cons_append, splitSlashes, ih]
    by_cases hc : c = '/'
    · exact ⟨[] :: parts, last, if_pos hc⟩
    · rw [if_neg hc]
      cases parts with
      | nil => exact ⟨[], c :: last, rfl⟩
      | cons part parts => exact ⟨(c :: part) :: parts, last, rfl⟩

lemma parts_join (directory name : String) (hn : '/' ∉ name.toList) :
    ∃ front start, parts (join directory [name]) = front ++ [start ++ name] := by
  have hjoin : ∃ start : List Char, (join directory [name]).toList = start ++ name.toList := by
    unfold join
    split_ifs
    · exact ⟨directory.toList, by simp [Path.text]⟩
    · exact ⟨directory.toList ++ ['/'], by simp [Path.text]⟩
  obtain ⟨start, hstart⟩ := hjoin
  obtain ⟨front, last, hsplit⟩ := splitSlashes_append start hn
  refine ⟨front.map String.ofList, String.ofList last, ?_⟩
  rw [parts, hstart, hsplit]
  simp [String.ofList_append]

end Path

namespace Disk

variable {d d' d'' : Disk}

lemma walk_append {path last : Path} {front : List String} {part : String}
    (h : d.walk path (front ++ [part]) = .ok last) : ∃ path', last = Path.follow path' part := by
  induction front generalizing path with
  | nil =>
    rw [List.nil_append, walk] at h
    cases he : d.enter path part with
    | error fault => simp [he] at h
    | ok next =>
      simp only [he] at h
      cases h
      exact ⟨path, (enter_ok_iff.mp he).2.2⟩
  | cons name front ih =>
    rw [List.cons_append, walk] at h
    cases he : d.enter path name with
    | error fault => simp [he] at h
    | ok next =>
      simp only [he] at h
      exact ih h

end Disk

namespace CatalogFile

/-- What ends like the settings file is in no catalog. -/
lemma isCatalogFile_settings (path : Path) (start : String) :
    isCatalogFile (Path.follow path (start ++ "config.toml")) = false := by
  have hlast : (Path.follow path (start ++ "config.toml")).getLast? =
      some (start ++ "config.toml") := by
    have hbytes : 11 ≤ (start ++ "config.toml").length := by
      rw [String.length_append, show "config.toml".length = 11 from rfl]
      omega
    have hne (part : String) (hp : part.length < 11) : start ++ "config.toml" ≠ part := by
      rintro rfl
      omega
    rw [Path.follow, if_neg, if_neg (hne ".." (by decide)), List.getLast?_concat]
    exact not_or.mpr ⟨hne "" (by decide), hne "." (by decide)⟩
  have hextension : extension? (start ++ "config.toml") = some "toml" := by
    simp [extension?]
  rw [isCatalogFile, hlast, Option.bind_some, hextension]
  decide

end CatalogFile

/-! ### Texts of a catalog -/

namespace Disk

variable {d d' d'' : Disk}

def textAt? (d : Disk) (path : Path) : Option String :=
  (d.file? path).bind fun file => file.content.text?

/-- All files are still there, and whatever text can be read now was there before, or is in a new
file that belongs to no catalog. -/
structure KeepsCatalog (d d' : Disk) : Prop where
  keeps : d.Keeps d'
  file : ∀ path, (d.file? path).isSome = true → (d'.file? path).isSome = true
  text : ∀ path text, d'.textAt? path = some text → d.textAt? path = some text ∨
    d.contains path = false ∧ CatalogFile.isCatalogFile path = false

lemma KeepsCatalog.refl (d : Disk) : d.KeepsCatalog d :=
  ⟨.refl d, fun _ => id, fun _ _ => .inl⟩

lemma KeepsCatalog.trans (h : d.KeepsCatalog d') (g : d'.KeepsCatalog d'') :
    d.KeepsCatalog d'' := by
  refine ⟨h.keeps.trans g.keeps, fun path hpath => g.file path (h.file path hpath), ?_⟩
  intro path text htext
  rcases g.text path text htext with htext' | ⟨hcontains, hfile⟩
  · exact h.text path text htext'
  · refine .inr ⟨?_, hfile⟩
    cases hc : d.contains path with
    | false => rfl
    | true => simp [h.keeps.contains path hc] at hcontains

lemma not_contains_iff {path : Path} : d.contains path = false ↔
    d.file? path = none ∧ d.isDirectory path = false := by
  simp [contains]

lemma textAt?_put (d : Disk) (path : Path) (content : Content) (other : Path) :
    (d.put path content).textAt? other =
      if path = other then content.text? else d.textAt? other := by
  unfold textAt? Disk.file?
  rw [entryAt_content]
  split_ifs <;> rfl

lemma isSome_file?_put (d : Disk) (path : Path) (content : Content) {other : Path}
    (h : (d.file? other).isSome = true) : ((d.put path content).file? other).isSome = true := by
  unfold Disk.file? at h ⊢
  rw [entryAt_content]
  split_ifs
  · rfl
  · exact h

/-- What cannot be read as a text takes no part in a catalog. -/
lemma keepsCatalog_put {path : Path} {content : Content}
    (hd : d.entryAt path ≠ some .directory) (hc : content.text? = none) :
    d.KeepsCatalog (d.put path content) := by
  refine ⟨keeps_put hd content, fun other => isSome_file?_put d path content, ?_⟩
  intro other text htext
  rw [textAt?_put] at htext
  split_ifs at htext
  · simp [hc] at htext
  · exact .inl htext

/-- Neither does a new file of another kind. -/
lemma keepsCatalog_create {path : Path} (content : Content) (hp : d.contains path = false)
    (hc : CatalogFile.isCatalogFile path = false) : d.KeepsCatalog (d.put path content) := by
  have hd : d.entryAt path ≠ some .directory := by
    intro hentry
    simp [contains_of_entry hentry] at hp
  refine ⟨keeps_put hd content, fun other => isSome_file?_put d path content, ?_⟩
  intro other text htext
  by_cases heq : path = other
  · subst heq
    exact .inr ⟨hp, hc⟩
  · rw [textAt?_put, if_neg heq] at htext
    exact .inl htext

lemma keepsCatalog_addDirectory {path : Path} (hp : d.contains path = false) :
    d.KeepsCatalog (d.addDirectory path) := by
  have hfile := (not_contains_iff.mp hp).1
  refine ⟨keeps_addDirectory path, fun other hother => ?_, fun other text htext => .inl ?_⟩
  · unfold Disk.file?
    rw [entryAt_addDirectory]
    split_ifs with heq
    · simp [← heq, hfile] at hother
    · exact hother
  · unfold textAt? Disk.file? at htext
    rw [entryAt_addDirectory] at htext
    split_ifs at htext
    · simp at htext
    · exact htext

lemma keepsCatalog_makeAlong {made : Bool} {path : Path} {parts : List String}
    {result : Except FileFault Unit} (h : d.makeAlong made path parts = (d', result)) :
    d.KeepsCatalog d' := by
  induction parts generalizing d made path with
  | nil =>
    cases h
    exact .refl _
  | cons part parts ih =>
    rw [makeAlong] at h
    cases he : d.enter path part with
    | error fault =>
      simp only [he] at h
      cases h
      exact .refl _
    | ok next =>
      simp only [he] at h
      split_ifs at h with hdirectory hcontains hmade
      · exact ih h
      · cases h
        exact .refl _
      · cases h
        exact .refl _
      · have hnext : d.contains next = false := by simpa using hcontains
        exact (keepsCatalog_addDirectory hnext).trans (ih h)

lemma keepsCatalog_makeDirectories {text : String} {result : Except FileFault Unit}
    (h : d.makeDirectories text = (d', result)) : d.KeepsCatalog d' := by
  unfold makeDirectories at h
  split_ifs at h
  · cases h
    exact .refl d
  · exact keepsCatalog_makeAlong h

end Disk

/-! ### Creating an index -/

namespace IndexStore

variable {s : IndexStore} {d d' : Disk} {locked : Option ℕ}

lemma keepsCatalog_initDirectory {result : Except FileFault Unit}
    (h : s.initDirectory d = (d', result)) : d.KeepsCatalog d' := by
  unfold initDirectory at h
  split_ifs at h
  · cases h
    exact .refl d
  · exact Disk.keepsCatalog_makeDirectories h

lemma keepsCatalog_initDatabase (h : s.initDatabase d locked = .ok d') : d.KeepsCatalog d' := by
  rcases initDatabase_cases h with ⟨rfl, -⟩ | ⟨rfl, hstate⟩
  · exact .refl _
  · exact Disk.keepsCatalog_put (entry_ne_directory hstate) rfl

lemma locate_settings {path : Path} (h : d.locate s.shownSettings = .ok path) :
    CatalogFile.isCatalogFile path = false := by
  obtain ⟨front, start, hparts⟩ := Path.parts_join s.shown "config.toml" (by decide)
  unfold Disk.locate at h
  split_ifs at h
  rw [shownSettings, hparts] at h
  obtain ⟨path', rfl⟩ := Disk.walk_append h
  exact CatalogFile.isCatalogFile_settings path' start

lemma keepsCatalog_initSettings (h : s.initSettings d = .ok d') : d.KeepsCatalog d' := by
  rcases initSettings_cases h with ⟨rfl, -⟩ | ⟨hmissing, hwrite⟩
  · exact .refl _
  · obtain ⟨path, hlocate, -, rfl⟩ := Disk.exists_of_write hwrite
    have hcontains : d.contains path = false := by
      cases hc : d.contains path with
      | false => rfl
      | true => simp [Disk.reaches_iff.mpr ⟨path, hlocate, hc⟩] at hmissing
    exact Disk.keepsCatalog_create _ hcontains (locate_settings hlocate)

lemma keepsCatalog_init (h : s.init d locked = (d', .ok ())) : d.KeepsCatalog d' := by
  obtain ⟨d₁, d₂, hdirectory, hdatabase, hsettings⟩ := init_ok h
  exact (keepsCatalog_initDirectory hdirectory).trans
    ((keepsCatalog_initDatabase hdatabase).trans (keepsCatalog_initSettings hsettings))

lemma keepsCatalog_putDatabase {file : DatabaseFile} (hs : s.state d = .ready file)
    (database : Database) (lost : Parts) :
    d.KeepsCatalog (s.putDatabase d (.database database lost)) := by
  refine Disk.keepsCatalog_put ?_ rfl
  rw [Disk.entryAt_of_file (entry_of_ready hs).2]
  nofun

end IndexStore

/-! ### Reading a catalog -/

lemma mapM_ok_iff {α β ε : Type} {f : α → Except ε β} {as : List α} {bs : List β} :
    as.mapM f = .ok bs ↔ List.Forall₂ (fun a b => f a = .ok b) as bs := by
  induction as generalizing bs with
  | nil =>
    rw [List.mapM_nil, List.forall₂_nil_left_iff]
    exact ⟨fun h => by cases h; rfl, fun h => by rw [h]; rfl⟩
  | cons a as ih =>
    rw [List.mapM_cons, List.forall₂_cons_left_iff]
    cases hf : f a with
    | error e => simp [bind, Except.bind]
    | ok b =>
      cases hr : as.mapM f with
      | error e =>
        simp only [bind, Except.bind, reduceCtorEq, false_iff]
        rintro ⟨b', bs', -, hbs, -⟩
        simp [ih.mpr hbs] at hr
      | ok bs' =>
        simp only [bind, Except.bind, pure, Except.pure, Except.ok.injEq]
        constructor
        · rintro rfl
          exact ⟨b, bs', rfl, ih.mp hr, rfl⟩
        · rintro ⟨b', bs'', rfl, hbs, rfl⟩
          have heq := ih.mpr hbs
          rw [hr] at heq
          cases heq
          rfl

section Pairs

variable {α β : Type} {R R' : α → β → Prop}

lemma exists_of_forall₂ {as : List α} {bs : List β} (h : List.Forall₂ R as bs) {a : α}
    (ha : a ∈ as) : ∃ b, R a b := by
  induction h with
  | nil => cases ha
  | cons hab _ ih =>
    rcases List.mem_cons.mp ha with rfl | ha
    · exact ⟨_, hab⟩
    · exact ih ha

lemma forall₂_unique {as : List α} {bs bs' : List β} (h : List.Forall₂ R as bs)
    (h' : List.Forall₂ R' as bs') (hu : ∀ a b, ∀ b' ∈ bs', R a b → R' a b' → b' = b) :
    bs' = bs := by
  induction h generalizing bs' with
  | nil =>
    cases h'
    rfl
  | cons hab _ ih =>
    cases h' with
    | cons hab' hrest =>
      rw [hu _ _ _ List.mem_cons_self hab hab',
        ih hrest fun a b b' hb' => hu a b b' (List.mem_cons_of_mem _ hb')]

end Pairs

namespace CatalogFile

variable {d d' : Disk}

lemma readAll_ok_iff {paths : List String} {documents : List Json} :
    readAll d paths = .ok documents ↔ ∃ lists contents,
      List.Forall₂ (fun shown files => ofPath d shown = .ok files) paths lists ∧
      List.Forall₂ (fun file items => readDocuments d file = .ok items) lists.flatten contents ∧
      documents = contents.flatten := by
  unfold readAll discover
  simp only [← mapM_ok_iff]
  cases paths.mapM (ofPath d) with
  | error failure => simp [Except.map]
  | ok lists =>
    simp only [Except.map, Except.ok.injEq, exists_and_left, exists_eq_left']
    cases lists.flatten.mapM (readDocuments d) with
    | error failure => simp
    | ok contents => simp [eq_comm]

lemma readDocuments_ok_iff {file : CatalogFile} {documents : List Json} :
    readDocuments d file = .ok documents ↔
      ∃ text, d.textAt? file.path = some text ∧
        Catalog.readDocuments? text = some documents := by
  unfold readDocuments Disk.textAt?
  cases (d.file? file.path).bind fun file => file.content.text? with
  | none => simp [during, failWith]
  | some text =>
    simp only [Option.some.injEq, exists_eq_left']
    cases Catalog.readDocuments? text with
    | none => simp [during, failWith]
    | some documents' => simp

def pathsWithin (d : Disk) (directory : Path) : List Path :=
  (d.entries.toList.filter fun entry =>
    directory.isBelow entry.1 && (d.file? entry.1).isSome && isCatalogFile entry.1).map Prod.fst

lemma within_eq (d : Disk) (shown : String) (directory : Path) :
    within d shown directory = (pathsWithin d directory).map fun path =>
      ⟨Path.join shown (path.drop directory.length), path⟩ := by
  rw [within, pathsWithin, List.map_map]
  rfl

lemma mem_pathsWithin {directory path : Path} : path ∈ pathsWithin d directory ↔
    directory.isBelow path = true ∧ (d.file? path).isSome = true ∧ isCatalogFile path = true := by
  simp only [pathsWithin, List.mem_map, List.mem_filter, Bool.and_eq_true]
  constructor
  · rintro ⟨entry, ⟨-, ⟨hbelow, hfile⟩, hcatalog⟩, rfl⟩
    exact ⟨hbelow, hfile, hcatalog⟩
  · rintro ⟨hbelow, hfile, hcatalog⟩
    obtain ⟨file, hfile'⟩ := Option.isSome_iff_exists.mp hfile
    refine ⟨(path, .file file), ⟨?_, ⟨hbelow, hfile⟩, hcatalog⟩, rfl⟩
    exact Std.TreeMap.mem_toList_iff_getElem?_eq_some.mpr (Disk.entryAt_of_file hfile')

lemma pathsWithin_sorted (d : Disk) (directory : Path) :
    (pathsWithin d directory).Pairwise fun a b => compare a b = .lt := by
  rw [pathsWithin, List.pairwise_map]
  exact Std.TreeMap.ordered_keys_toList.filter _

/-- Directories with the same catalog files list them in the same order. -/
lemma pathsWithin_congr {directory : Path}
    (h : ∀ path, path ∈ pathsWithin d directory ↔ path ∈ pathsWithin d' directory) :
    pathsWithin d directory = pathsWithin d' directory := by
  have hnodup (d : Disk) : (pathsWithin d directory).Nodup := by
    refine (pathsWithin_sorted d directory).imp fun {a b} hlt heq => ?_
    subst heq
    simp at hlt
  have hperm : (pathsWithin d directory).Perm (pathsWithin d' directory) :=
    (List.perm_ext_iff_of_nodup (hnodup d) (hnodup d')).mpr h
  refine hperm.eq_of_pairwise (fun a b _ _ hab hba => ?_) (pathsWithin_sorted d directory)
    (pathsWithin_sorted d' directory)
  rw [@Std.OrientedCmp.eq_swap _ compare _ a b, hba] at hab
  cases hab

def Legible (d : Disk) (file : CatalogFile) : Prop := (d.textAt? file.path).isSome = true

lemma isSome_file?_of_text {path : Path} {text : String} (h : d.textAt? path = some text) :
    (d.file? path).isSome = true := by
  cases hf : d.file? path with
  | none => simp [Disk.textAt?, hf] at h
  | some file => rfl

variable (h : d.KeepsCatalog d')
include h

/-- As long as all files that a path stands for now can be read, they are those of before. -/
lemma ofPath_kept {shown : String} {files files' : List CatalogFile}
    (hd : ofPath d shown = .ok files) (hd' : ofPath d' shown = .ok files')
    (hl : ∀ file ∈ files', Legible d' file) : files' = files := by
  unfold ofPath at hd
  cases hfind : d.find shown with
  | error fault => simp [hfind, failWith] at hd
  | ok path =>
    have hreach : d.locate shown = .ok path ∧ d.contains path = true := by
      unfold Disk.find at hfind
      cases hloc : d.locate shown with
      | error fault => simp [hloc] at hfind
      | ok path' =>
        simp only [hloc] at hfind
        split_ifs at hfind with hcontains
        cases hfind
        exact ⟨rfl, hcontains⟩
    have hfind' : d'.find shown = .ok path := by
      rw [Disk.find, h.keeps.locate hreach.1]
      exact if_pos (h.keeps.contains path hreach.2)
    unfold ofPath at hd'
    simp only [hfind] at hd
    simp only [hfind'] at hd'
    cases hd
    cases hd'
    by_cases hfile : (d.file? path).isSome = true
    · rw [if_pos hfile, if_pos (h.file path hfile)]
    · -- A file in place of a directory would be new, but nothing new is made where something was.
      have hfile' : ¬ (d'.file? path).isSome = true := by
        intro hfile'
        rw [if_pos hfile'] at hl
        obtain ⟨text, htext⟩ := Option.isSome_iff_exists.mp (hl _ (List.mem_singleton.mpr rfl))
        rcases h.text path text htext with htext' | ⟨hcontains, -⟩
        · exact hfile (isSome_file?_of_text htext')
        · simp [hreach.2] at hcontains
      rw [if_neg hfile'] at hl ⊢
      rw [if_neg hfile]
      rw [within_eq] at hl ⊢
      rw [within_eq]
      -- A file that is new in the directory can be read, so it is no catalog file.
      refine congrArg _ (pathsWithin_congr fun other => ?_)
      constructor
      · intro hother
        obtain ⟨text, htext⟩ := Option.isSome_iff_exists.mp
          (hl _ (List.mem_map.mpr ⟨other, hother, rfl⟩))
        obtain ⟨hbelow, -, hcatalog⟩ := mem_pathsWithin.mp hother
        rcases h.text other text htext with htext' | ⟨-, hno⟩
        · exact mem_pathsWithin.mpr ⟨hbelow, isSome_file?_of_text htext', hcatalog⟩
        · simp [hcatalog] at hno
      · intro hother
        obtain ⟨hbelow, hfile, hcatalog⟩ := mem_pathsWithin.mp hother
        exact mem_pathsWithin.mpr ⟨hbelow, h.file other hfile, hcatalog⟩

lemma readDocuments_kept {file : CatalogFile} {documents documents' : List Json}
    (hr : readDocuments d file = .ok documents) (hr' : readDocuments d' file = .ok documents') :
    documents' = documents := by
  obtain ⟨text, htext, hdocuments⟩ := readDocuments_ok_iff.mp hr
  obtain ⟨text', htext', hdocuments'⟩ := readDocuments_ok_iff.mp hr'
  rcases h.text file.path text' htext' with hsame | ⟨hcontains, -⟩
  · rw [htext] at hsame
    cases hsame
    rw [hdocuments] at hdocuments'
    exact (Option.some.inj hdocuments').symm
  · have hfile := isSome_file?_of_text htext
    simp [Disk.contains, hfile] at hcontains

/-- If a catalog can still be read, it is read as before. -/
theorem readAll_kept {paths : List String} {documents documents' : List Json}
    (hr : readAll d paths = .ok documents) (hr' : readAll d' paths = .ok documents') :
    documents' = documents := by
  obtain ⟨lists, contents, hlists, hcontents, rfl⟩ := readAll_ok_iff.mp hr
  obtain ⟨lists', contents', hlists', hcontents', rfl⟩ := readAll_ok_iff.mp hr'
  have hlegible : ∀ files ∈ lists', ∀ file ∈ files, Legible d' file := by
    intro files hfiles file hfile
    obtain ⟨items, hitems⟩ := exists_of_forall₂ hcontents'
      (List.mem_flatten.mpr ⟨files, hfiles, hfile⟩)
    obtain ⟨text, htext, -⟩ := readDocuments_ok_iff.mp hitems
    exact Option.isSome_iff_exists.mpr ⟨text, htext⟩
  have hsame : lists' = lists := forall₂_unique hlists hlists'
    fun shown files files' hfiles' hd hd' => ofPath_kept h hd hd' (hlegible files' hfiles')
  subst hsame
  rw [forall₂_unique hcontents hcontents'
    fun file items items' _ hd hd' => readDocuments_kept h hd hd']

end CatalogFile

end SignatureSearch
