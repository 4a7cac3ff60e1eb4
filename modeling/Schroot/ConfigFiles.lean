import Schroot.ChrootAliases
import Schroot.SessionState

/-!
# Loading the configuration from files

`load_config` reads the configuration file, and every file of the configuration directory and of
the session directory that has a valid name.  A file is examined before and after it is opened.

**Input.**  What is found out about each file, and its text; a directory lists its entries in any
order.

**Results.**
* `loadData_eq_ok`: what has to be true of a file to be loaded.
* `loadedAll_loadConfig`: the texts that the configuration is read from.
* `findChroot_loadConfig`: the chroots that are found in it.
-/

namespace Schroot

section Files

/-- Codes of `chroot_config::error` about files. -/
inductive FileCode where
  | fileNotreg
  | fileOpen
  | fileOwner
  | filePerms
deriving DecidableEq, Repr

/-- What loading files can throw. -/
inductive FileError where
  | stat (file : String)
  | file (e : ErrorInfo FileCode)
  | lock (file : String)
  | data (file : String) (e : LoadError)
deriving DecidableEq

/-- A file as `load_data` finds it: its status before and after it is opened, and what locking it
comes to; `stat` fails with `none`. -/
structure DataFile where
  status : Option FileStatus
  openFails : Bool := false
  fdStatus : Option FileStatus
  lockFails : Bool := false
  unlockFails : Bool := false
  text : String

/-- An entry of a directory, with the status that says whether it is a file. -/
structure DirectoryEntry where
  name : String
  status : Option FileStatus
  data : DataFile

/-- What a path leads to. -/
inductive Location where
  | missing
  | file (data : DataFile)
  | directory (entries : List DirectoryEntry)

end Files

namespace ChrootConfig

section Model

variable (cfg : SbuildConfig) (ns : String)

/-- The checks of a status. -/
def checkStatus (file : String) : Option FileStatus → Except FileError Unit
  | none => .error (.stat file)
  | some status =>
      if status.uid ≠ 0 then .error (.file { code := .fileOwner, context := file })
      else if status.otherWrite then .error (.file { code := .filePerms, context := file })
      else if !status.isRegular then .error (.file { code := .fileNotreg, context := file })
      else .ok ()

/-- Something fails. -/
def failIf (fails : Bool) (e : FileError) : Except FileError Unit :=
  if fails then .error e else .ok ()

/-- `load_data`. -/
def loadData (file : String) (data : DataFile) (conf : ChrootConfig) :
    Except FileError ChrootConfig := do
  checkStatus file data.status
  failIf data.openFails (.file { code := .fileOpen, context := file })
  checkStatus file data.fdStatus
  failIf data.lockFails (.lock file)
  let conf ← (parseData cfg ns data.text conf).mapError (.data file)
  failIf data.unlockFails (.lock file)
  pure conf

/-- The entry is skipped, or warned about. -/
def skipsEntry (entry : DirectoryEntry) : Bool :=
  entry.name = "." || entry.name = ".." || !isValidSessionname entry.name ||
    !entry.status.any FileStatus.isRegular

/-- One turn of the loop of `add_config_directory`. -/
def addConfigEntry (dir : String) (conf : ChrootConfig) (entry : DirectoryEntry) :
    Except FileError ChrootConfig :=
  if skipsEntry entry then .ok conf else loadData cfg ns (dir ++ "/" ++ entry.name) entry.data conf

/-- `add_config_directory`. -/
def addConfigDirectory (dir : String) (entries : List DirectoryEntry) (conf : ChrootConfig) :
    Except FileError ChrootConfig :=
  if dir = "" then .ok conf else entries.foldlM (addConfigEntry cfg ns dir) conf

/-- `add` for a path. -/
def addLocation (path : String) (location : Location) (conf : ChrootConfig) :
    Except FileError ChrootConfig :=
  match location with
  | .missing => .error (.stat path)
  | .file data => loadData cfg ns path data conf
  | .directory entries => addConfigDirectory cfg ns path entries conf

/-- The places that the configuration is loaded from. -/
structure ConfigPlaces where
  conf : Location
  chrootD : Location
  sessions : Location

def schrootConf : String := cfg.sysconfDir ++ "/schroot.conf"

def schrootConfChrootD : String := cfg.sysconfDir ++ "/chroot.d"

/-- The part of `load_config` for normal chroots. -/
def loadChroots (places : ConfigPlaces) (conf : ChrootConfig) : Except FileError ChrootConfig := do
  let conf ← addLocation cfg "chroot" (schrootConf cfg) places.conf conf
  addLocation cfg "chroot" (schrootConfChrootD cfg) places.chrootD conf

/-- The part of `load_config` for sessions. -/
def loadSessions (places : ConfigPlaces) (conf : ChrootConfig) : Except FileError ChrootConfig :=
  addLocation cfg "session" cfg.sessionDir places.sessions conf

/-- Something is loaded if it is asked for. -/
def loadIf (asked : Bool) (load : ChrootConfig → Except FileError ChrootConfig)
    (conf : ChrootConfig) : Except FileError ChrootConfig :=
  if asked then load conf else .ok conf

/-- `load_config`: normal chroots and sessions. -/
def loadConfig (chroots sessions : Bool) (places : ConfigPlaces) :
    Except FileError ChrootConfig := do
  let conf ← loadIf chroots (loadChroots cfg places) .empty
  loadIf sessions (loadSessions cfg places) conf

end Model

section Trusted

variable {cfg : SbuildConfig} {ns file : String} {data : DataFile} {conf conf' : ChrootConfig}

/-- The file belongs to root, nobody else may write to it, and it is a regular file. -/
def StatusTrusted (status : Option FileStatus) : Prop :=
  ∃ s, status = some s ∧ s.uid = 0 ∧ s.otherWrite = false ∧ s.isRegular = true

/-- **A trusted file**: it was found to be so twice, and the second time by its descriptor. -/
structure Trusted (data : DataFile) : Prop where
  path : StatusTrusted data.status
  descriptor : StatusTrusted data.fdStatus

theorem checkStatus_eq_ok
    {status : Option FileStatus} :
    checkStatus file status = .ok () ↔ StatusTrusted status := by
  cases status with
  | none => simp [checkStatus, StatusTrusted]
  | some s =>
      by_cases huid : s.uid = 0
      · cases hwrite : s.otherWrite with
        | false =>
            cases hregular : s.isRegular with
            | false => simp [checkStatus, StatusTrusted, huid, hwrite, hregular]
            | true => simp [checkStatus, StatusTrusted, huid, hwrite, hregular]
        | true => simp [checkStatus, StatusTrusted, huid, hwrite]
      · simp [checkStatus, StatusTrusted, huid]

theorem failIf_eq_ok
    {fails : Bool} {e : FileError} :
    failIf fails e = .ok () ↔ fails = false := by
  cases fails <;> simp [failIf]

/-- **What has to be true of a file that is loaded.** -/
theorem loadData_eq_ok :
    loadData cfg ns file data conf = .ok conf' ↔
      Trusted data ∧ data.openFails = false ∧ data.lockFails = false ∧
        data.unlockFails = false ∧ parseData cfg ns data.text conf = .ok conf' := by
  simp only [loadData, bind_eq_ok_iff, mapError_eq_ok_iff]
  constructor
  · rintro ⟨_, hpath, _, hopen, _, hdescriptor, _, hlock, conf₁, hparse, _, hunlock, hconf⟩
    cases hconf
    exact ⟨⟨checkStatus_eq_ok.mp hpath, checkStatus_eq_ok.mp hdescriptor⟩,
      failIf_eq_ok.mp hopen, failIf_eq_ok.mp hlock, failIf_eq_ok.mp hunlock, hparse⟩
  · rintro ⟨⟨hpath, hdescriptor⟩, hopen, hlock, hunlock, hparse⟩
    exact ⟨(), checkStatus_eq_ok.mpr hpath, (), failIf_eq_ok.mpr hopen, (),
      checkStatus_eq_ok.mpr hdescriptor, (), failIf_eq_ok.mpr hlock, conf', hparse, (),
      failIf_eq_ok.mpr hunlock, rfl⟩

end Trusted

section Adding

variable {cfg : SbuildConfig} {ns : String} {kf : Keyfile} {conf conf' : ChrootConfig}
  {P P' : String → Chroot → Prop}

/-- **What is found afterwards** has been found before, or is one of the chroots in question, under
its own name. -/
def Adds (P : String → Chroot → Prop) (conf conf' : ChrootConfig) : Prop :=
  ∀ n name c, conf'.findChroot n name = some c ↔
    conf.findChroot n name = some c ∨ (c.name = name ∧ P n c)

theorem Adds.refl (conf : ChrootConfig) : Adds (fun _ _ => False) conf conf :=
  fun n name c => by simp

theorem Adds.trans
    {conf₁ : ChrootConfig}
    (h : Adds P conf conf₁)
    (h' : Adds P' conf₁ conf') :
    Adds (fun n c => P n c ∨ P' n c) conf conf' := by
  intro n name c
  rw [h', h]
  tauto

theorem Adds.congr
    (h : Adds P conf conf')
    (hP : ∀ n c, P n c ↔ P' n c) :
    Adds P' conf conf' := by
  intro n name c
  rw [h, hP]

/-- Steps that add chroots, one after the other. -/
theorem adds_foldlM
    {α ε : Type} {f : ChrootConfig → α → Except ε ChrootConfig}
    {Q : α → String → Chroot → Prop}
    {l : List α}
    (hf : ∀ a conf conf', f conf a = .ok conf' → Adds (Q a) conf conf')
    (h : l.foldlM f conf = .ok conf') :
    Adds (fun n c => ∃ a ∈ l, Q a n c) conf conf' := by
  induction l generalizing conf with
  | nil =>
      have heq : conf = conf' := Except.ok.inj h
      subst heq
      exact (Adds.refl conf).congr fun n c => by simp
  | cons a l ih =>
      rw [List.foldlM_cons, bind_eq_ok_iff] at h
      obtain ⟨conf₁, hfirst, hrest⟩ := h
      exact ((hf a conf conf₁ hfirst).trans (ih hrest)).congr fun n c => by simp

/-- One chroot is added. -/
theorem adds_add
    {c : Chroot}
    (h : conf.add ns c kf = .ok conf') :
    Adds (fun n d => n = ns ∧ d = c) conf conf' := by
  have hadded := added_of_add h
  intro n name d
  rw [hadded.chroots]
  split
  · rename_i hnew
    obtain ⟨rfl, rfl⟩ := hnew
    rw [hadded.fresh.1]
    simp only [Option.some.injEq, reduceCtorEq, false_or, true_and]
    constructor
    · rintro rfl
      exact ⟨rfl, rfl⟩
    · exact fun h => h.2.symm
  · rename_i hold
    constructor
    · exact .inl
    · rintro (h | ⟨rfl, rfl, rfl⟩)
      · exact h
      · exact absurd ⟨rfl, rfl⟩ hold

/-- What a group is read as: a chroot, and the source chroot that comes with it. -/
inductive ReadGroup (cfg : SbuildConfig) (ns : String) (kf : Keyfile) (group : String) :
    String → Chroot → Prop
  | chroot {c : Chroot}
      (h : loadChroot cfg ns kf group = .ok c) :
      ReadGroup cfg ns kf group ns c
  | source {c source : Chroot}
      (h : loadChroot cfg ns kf group = .ok c)
      (hsource : loadSource cfg c = .ok (some source)) :
      ReadGroup cfg ns kf group "source" source

/-- One group. -/
theorem adds_loadGroup
    {group : String}
    (h : loadGroup cfg ns kf conf group = .ok conf') :
    Adds (ReadGroup cfg ns kf group) conf conf' := by
  simp only [loadGroup, bind_eq_ok_iff] at h
  obtain ⟨c, hc, conf₁, hadd, source, hsource, h⟩ := h
  cases source with
  | none =>
      cases h
      refine (adds_add hadd).congr fun n d => ⟨?_, ?_⟩
      · rintro ⟨rfl, rfl⟩
        exact .chroot hc
      · rintro (hd | ⟨hd, hs⟩)
        · rw [hc] at hd
          cases hd
          exact ⟨rfl, rfl⟩
        · rw [hc] at hd
          cases hd
          rw [hsource] at hs
          cases hs
  | some source =>
      refine ((adds_add hadd).trans (adds_add h)).congr fun n d => ⟨?_, ?_⟩
      · rintro (⟨rfl, rfl⟩ | ⟨rfl, rfl⟩)
        · exact .chroot hc
        · exact .source hc hsource
      · rintro (hd | ⟨hd, hs⟩)
        · rw [hc] at hd
          cases hd
          exact .inl ⟨rfl, rfl⟩
        · rw [hc] at hd
          cases hd
          rw [hsource] at hs
          cases hs
          exact .inr ⟨rfl, rfl⟩

/-- A chroot that is read from a text into a namespace. -/
def ReadFrom (cfg : SbuildConfig) (ns text n : String) (c : Chroot) : Prop :=
  ∃ kf, Keyfile.empty.parse text = .ok kf ∧ ∃ group ∈ kf.getGroups, ReadGroup cfg ns kf group n c

/-- One text. -/
theorem adds_parseData
    {text : String}
    (h : parseData cfg ns text conf = .ok conf') :
    Adds (ReadFrom cfg ns text) conf conf' := by
  simp only [parseData, bind_eq_ok_iff, mapError_eq_ok_iff] at h
  obtain ⟨kf, hparse, hload⟩ := h
  have hgroups : kf.getGroups.foldlM (loadGroup cfg ns kf) conf = .ok conf' := hload
  have hone : ∀ (group : String) (conf₁ conf₂ : ChrootConfig),
      loadGroup cfg ns kf conf₁ group = .ok conf₂ → Adds (ReadGroup cfg ns kf group) conf₁ conf₂ :=
    fun _ _ _ => adds_loadGroup
  have hadds := adds_foldlM hone hgroups
  refine hadds.congr fun n c => ⟨?_, ?_⟩
  · rintro ⟨group, hgroup, hread⟩
    exact ⟨kf, hparse, group, hgroup, hread⟩
  · rintro ⟨kf', hparse', group, hgroup, hread⟩
    rw [hparse] at hparse'
    cases hparse'
    exact ⟨group, hgroup, hread⟩

end Adding

section Locations

variable {cfg : SbuildConfig} {ns : String} {conf conf' : ChrootConfig}

/-- The files that are read from a place. -/
def readFiles (path : String) : Location → List DataFile
  | .missing => []
  | .file data => [data]
  | .directory entries =>
      if path = "" then []
      else (entries.filter fun entry => !skipsEntry entry).map DirectoryEntry.data

/-- A turn of the loop is skipped, or the file is loaded. -/
theorem addConfigDirectory_eq
    (cfg : SbuildConfig) (ns path : String) (entries : List DirectoryEntry) (conf : ChrootConfig) :
    entries.foldlM (addConfigEntry cfg ns path) conf =
      (entries.filter fun entry => !skipsEntry entry).foldlM
        (fun conf entry => loadData cfg ns (path ++ "/" ++ entry.name) entry.data conf) conf := by
  induction entries generalizing conf with
  | nil => rfl
  | cons entry entries ih =>
      rw [List.foldlM_cons, addConfigEntry, List.filter_cons]
      cases hskips : skipsEntry entry with
      | true => exact ih conf
      | false =>
          simp only [Bool.not_false, if_true, Bool.false_eq_true, if_false, List.foldlM_cons]
          exact bind_congr ih

/-- What a place is loaded as: its files are trusted, and their texts are read in order. -/
structure LoadedFrom (cfg : SbuildConfig) (ns : String) (files : List DataFile)
    (conf conf' : ChrootConfig) : Prop where
  trusted : ∀ data ∈ files, Trusted data
  read : files.foldlM (fun conf data => parseData cfg ns data.text conf) conf = .ok conf'

/-- **One place.** -/
theorem loadedFrom_addLocation
    {path : String} {location : Location}
    (h : addLocation cfg ns path location conf = .ok conf') :
    LoadedFrom cfg ns (readFiles path location) conf conf' := by
  cases location with
  | missing => cases h
  | file data =>
      obtain ⟨htrusted, -, -, -, hparse⟩ := loadData_eq_ok.mp h
      refine ⟨by simpa [readFiles] using htrusted, ?_⟩
      simp [readFiles, hparse]
  | directory entries =>
      simp only [addLocation, addConfigDirectory] at h
      simp only [readFiles]
      by_cases hpath : path = ""
      · rw [if_pos hpath] at h ⊢
        cases h
        exact ⟨by simp, rfl⟩
      · rw [if_neg hpath] at h ⊢
        rw [addConfigDirectory_eq] at h
        generalize entries.filter (fun entry => !skipsEntry entry) = read at h ⊢
        induction read generalizing conf with
        | nil =>
            cases h
            exact ⟨by simp, rfl⟩
        | cons entry read ih =>
            rw [List.foldlM_cons, bind_eq_ok_iff] at h
            obtain ⟨conf₁, hentry, hrest⟩ := h
            obtain ⟨htrusted, -, -, -, hparse⟩ := loadData_eq_ok.mp hentry
            obtain ⟨hall, hread⟩ := ih hrest
            constructor
            · exact List.forall_mem_cons.mpr ⟨htrusted, hall⟩
            · rw [List.map_cons, List.foldlM_cons, hparse]
              exact hread

/-- The files that normal chroots are read from. -/
def ConfigPlaces.chrootFiles (cfg : SbuildConfig) (places : ConfigPlaces) :
    List (String × DataFile) :=
  (readFiles (schrootConf cfg) places.conf ++
    readFiles (schrootConfChrootD cfg) places.chrootD).map fun data => ("chroot", data)

/-- The files that sessions are read from. -/
def ConfigPlaces.sessionFiles (cfg : SbuildConfig) (places : ConfigPlaces) :
    List (String × DataFile) :=
  (readFiles cfg.sessionDir places.sessions).map fun data => ("session", data)

/-- The files that the configuration is read from, with the namespaces that they are read into. -/
def ConfigPlaces.read (cfg : SbuildConfig) (chroots sessions : Bool) (places : ConfigPlaces) :
    List (String × DataFile) :=
  (if chroots then places.chrootFiles cfg else []) ++
    if sessions then places.sessionFiles cfg else []

/-- What the places are loaded as. -/
structure LoadedAll (cfg : SbuildConfig) (read : List (String × DataFile))
    (conf conf' : ChrootConfig) : Prop where
  trusted : ∀ r ∈ read, Trusted r.2
  read : read.foldlM (fun conf r => parseData cfg r.1 r.2.text conf) conf = .ok conf'

theorem LoadedFrom.all
    {files : List DataFile}
    (h : LoadedFrom cfg ns files conf conf') :
    LoadedAll cfg (files.map fun data => (ns, data)) conf conf' := by
  constructor
  · intro r hr
    obtain ⟨data, hdata, rfl⟩ := List.mem_map.mp hr
    exact h.trusted data hdata
  · rw [List.foldlM_map]
    exact h.read

theorem LoadedAll.trans
    {read read' : List (String × DataFile)} {conf₁ : ChrootConfig}
    (h : LoadedAll cfg read conf conf₁)
    (h' : LoadedAll cfg read' conf₁ conf') :
    LoadedAll cfg (read ++ read') conf conf' := by
  constructor
  · intro r hr
    exact (List.mem_append.mp hr).elim (h.trusted r) (h'.trusted r)
  · rw [List.foldlM_append, h.read]
    exact h'.read

theorem LoadedAll.nil (conf : ChrootConfig) : LoadedAll cfg [] conf conf :=
  ⟨by simp, rfl⟩

/-- **The texts that a configuration is read from.** -/
theorem loadedAll_loadConfig
    {chroots sessions : Bool} {places : ConfigPlaces}
    (h : loadConfig cfg chroots sessions places = .ok conf) :
    LoadedAll cfg (places.read cfg chroots sessions) .empty conf := by
  simp only [loadConfig, bind_eq_ok_iff] at h
  obtain ⟨conf₁, hchroots, hsessions⟩ := h
  have hfirst : LoadedAll cfg (if chroots then places.chrootFiles cfg else []) .empty conf₁ := by
    cases chroots with
    | false =>
        cases hchroots
        exact .nil _
    | true =>
        simp only [loadIf, if_true, loadChroots, bind_eq_ok_iff] at hchroots
        obtain ⟨conf₀, hconf, hdir⟩ := hchroots
        rw [if_pos rfl, ConfigPlaces.chrootFiles, List.map_append]
        exact (loadedFrom_addLocation hconf).all.trans (loadedFrom_addLocation hdir).all
  have hsecond : LoadedAll cfg (if sessions then places.sessionFiles cfg else []) conf₁ conf := by
    cases sessions with
    | false =>
        cases hsessions
        exact .nil _
    | true => exact (loadedFrom_addLocation hsessions).all
  exact hfirst.trans hsecond

/-- A text that is loaded leaves behind what its groups do. -/
theorem loadGroups_of_parseData
    {text : String}
    (h : parseData cfg ns text conf = .ok conf') :
    ∃ kf, Keyfile.empty.parse text = .ok kf ∧
      (loadGroups cfg ns kf conf kf.getGroups).1 = conf' := by
  simp only [parseData, bind_eq_ok_iff, mapError_eq_ok_iff] at h
  obtain ⟨kf, hparse, hload⟩ := h
  have hgroups : kf.getGroups.foldlM (loadGroup cfg ns kf) conf = .ok conf' := hload
  rw [loadGroups_eq] at hgroups
  split at hgroups
  · rename_i hend
    cases hgroups
    exact ⟨kf, hparse, by rw [hend]⟩
  · cases hgroups

/-- A configuration that is loaded is one that is left behind by calls. -/
theorem LoadedAll.run_eq
    {read : List (String × DataFile)}
    (h : LoadedAll cfg read conf conf') :
    run cfg conf (read.map fun r => .parseData r.1 r.2.text) = conf' := by
  obtain ⟨-, hread⟩ := h
  induction read generalizing conf with
  | nil =>
      cases hread
      rfl
  | cons r read ih =>
      rw [List.foldlM_cons, bind_eq_ok_iff] at hread
      obtain ⟨conf₁, hfirst, hrest⟩ := hread
      obtain ⟨kf, hparse, hgroups⟩ := loadGroups_of_parseData hfirst
      rw [← ih hrest, List.map_cons, run, List.foldl_cons]
      simp only [Call.run, hparse, hgroups]
      rfl

/-- **What adding the chroots that are loaded keeps** is kept when the files are read. -/
theorem LoadedAll.keeps
    {P : ChrootConfig → Prop} {read : List (String × DataFile)}
    (hchroot : ∀ {r group c kf conf conf'}, r ∈ read → P conf →
      loadChroot cfg r.1 kf group = .ok c → conf.add r.1 c kf = .ok conf' → P conf')
    (hsource : ∀ {r group c source kf conf conf'}, r ∈ read → P conf →
      loadChroot cfg r.1 kf group = .ok c → loadSource cfg c = .ok (some source) →
        conf.add "source" source kf = .ok conf' → P conf')
    (h : LoadedAll cfg read conf conf')
    (hP : P conf) :
    P conf' := by
  obtain ⟨-, hread⟩ := h
  induction read generalizing conf with
  | nil =>
      cases hread
      exact hP
  | cons r read ih =>
      rw [List.foldlM_cons, bind_eq_ok_iff] at hread
      obtain ⟨conf₁, hfirst, hrest⟩ := hread
      obtain ⟨kf, -, hgroups⟩ := loadGroups_of_parseData hfirst
      have hr : r ∈ r :: read := List.mem_cons_self
      refine ih (fun h => hchroot (List.mem_cons_of_mem r h))
        (fun h => hsource (List.mem_cons_of_mem r h)) ?_ hrest
      rw [← hgroups]
      exact loadGroups_keeps (hchroot hr) (hsource hr) hP kf.getGroups

/-- **The chroots that are found** are those of the texts. -/
theorem LoadedAll.findChroot_iff
    {read : List (String × DataFile)}
    (h : LoadedAll cfg read .empty conf)
    (n name : String) (c : Chroot) :
    conf.findChroot n name = some c ↔
      c.name = name ∧ ∃ r ∈ read, ReadFrom cfg r.1 r.2.text n c := by
  have hempty : empty.findChroot n name ≠ some c := by
    intro hfind
    obtain ⟨found, hns, hc⟩ := Option.bind_eq_some_iff.mp hfind
    rw [(namespaces_empty hns).2] at hc
    simp at hc
  have hone : ∀ (r : String × DataFile) (conf₁ conf₂ : ChrootConfig),
      parseData cfg r.1 r.2.text conf₁ = .ok conf₂ → Adds (ReadFrom cfg r.1 r.2.text) conf₁ conf₂ :=
    fun _ _ _ => adds_parseData
  rw [adds_foldlM hone h.read n name c]
  exact or_iff_right hempty

/-- **What a configuration is loaded with**: the files that were read had belonged to root, nobody
else could write to them and they were regular; and the chroots that are found are those of their
groups and their source chroots, each under its own name. -/
theorem findChroot_loadConfig
    {chroots sessions : Bool} {places : ConfigPlaces}
    (h : loadConfig cfg chroots sessions places = .ok conf) :
    (∀ r ∈ places.read cfg chroots sessions, Trusted r.2) ∧
      ∀ n name c, conf.findChroot n name = some c ↔
        c.name = name ∧
          ∃ r ∈ places.read cfg chroots sessions, ReadFrom cfg r.1 r.2.text n c :=
  have hloaded := loadedAll_loadConfig h
  ⟨hloaded.trusted, hloaded.findChroot_iff⟩

/-- A file that may be loaded. -/
def rootFile (text : String) : DataFile where
  status := some { uid := 0, otherWrite := false, isRegular := true, isBlock := false }
  fdStatus := some { uid := 0, otherWrite := false, isRegular := true, isBlock := false }
  text := text

/-- One chroot in the configuration file, and no others. -/
def onePlace : ConfigPlaces where
  conf := .file (rootFile "[d]\ntype=directory\ndirectory=/srv/d\n")
  chrootD := .directory []
  sessions := .missing

/-- It is found, and it has been read from the file. -/
theorem findChroot_onePlace :
    ∃ conf, loadConfig .standard true false onePlace = .ok conf ∧
      (conf.findChroot "chroot" "d").isSome = true ∧
      (∀ r ∈ onePlace.read .standard true false, Trusted r.2) ∧
        ∀ n name c, conf.findChroot n name = some c ↔
          c.name = name ∧ ∃ r ∈ onePlace.read .standard true false,
            ReadFrom .standard r.1 r.2.text n c := by
  have hrun : okAnd (loadConfig .standard true false onePlace)
      (fun conf => (conf.findChroot "chroot" "d").isSome) = true := by decide +kernel
  obtain ⟨conf, hconf, hfind⟩ := okAnd_eq_true_iff.mp hrun
  exact ⟨conf, hconf, hfind, findChroot_loadConfig hconf⟩

/-- The aliases of a configuration that is loaded lead to its chroots. -/
theorem resolves_loadConfig
    {chroots sessions : Bool} {places : ConfigPlaces}
    (h : loadConfig cfg chroots sessions places = .ok conf) :
    conf.Resolves := by
  rw [← (loadedAll_loadConfig h).run_eq]
  exact resolves_run cfg resolves_empty _

end Locations

end ChrootConfig

end Schroot
