import HttpServer.HttpMessage
import HttpServer.LexicalPath
import Mathlib.Data.List.TakeWhile

/-!
# Static files

`HandleStaticFile` of `application/http/http_protocol_handler.cpp`, and the file
system it looks at: a tree without links, in which a name is followed component by
component. The name that is looked up is made from the request path in three steps:
the prefix is cut off, one slash is put in front or taken off, and the rest is joined
to the root directory with `operator/` of `std::filesystem::path`.

A rest that starts with a slash even so is an absolute path, and joining it to the
root directory forgets the root directory. `static_confined_iff` is the exact account
of when a file outside the root is opened; what remains of the guard against `..` is
`confined_of_relative`.
-/

/-! ## The file system -/

/-- What is at a place of the file system. -/
inductive FileNode
  | directory
  /-- A regular file, and whether the server may read it. -/
  | regular (content : Bytes) (readable : Bool)
  /-- A device, a pipe or a socket. -/
  | special
  deriving DecidableEq

/-- **A file system without links**: what is at each place, a place being the list of
names that lead to it from the root, and the working directory. -/
structure FileSystem where
  node : List Bytes → Option FileNode
  cwd : List Bytes

namespace FileSystem

open LexicalPath

/-- What the components of a name do. -/
def motion (c : Bytes) : Motion :=
  if c = [] ∨ c = lit "." then .stay else if c = lit ".." then .up else .down

/-- The components of a name. -/
def components (name : Bytes) : List Bytes := name.splitOn 0x2F

def isAbsolute (name : Bytes) : Bool := name.head? == some 0x2F

variable (fs : FileSystem)

def isDir (place : List Bytes) : Bool := fs.node place == some .directory

/-- The place a name is followed from. -/
def start (name : Bytes) : List Bytes := if isAbsolute name then [] else fs.cwd

/-- **The absolute, lexically normalised path of a name.** -/
def place (name : Bytes) : List Bytes := resolve motion (fs.start name) (components name)

/-- `stat`. The empty name names nothing. -/
def stat (name : Bytes) : Option FileNode :=
  if name = [] then none
  else (walk motion fs.isDir (fs.start name) (components name)).bind fs.node

/-- A regular file is opened: `fs::exists`, `fs::is_regular_file` and the constructor
of `std::ifstream`. -/
def openRegular (name : Bytes) : Option Bytes :=
  match fs.stat name with
  | some (.regular content true) => some content
  | _ => none

/-- The name the system sees, which ends at the first null byte. -/
def cString (s : Bytes) : Bytes := s.takeWhile (· != 0)

end FileSystem

/-! ## The source -/

open FileSystem

/-- `operator/` of `std::filesystem::path`. -/
def joinPath (p q : Bytes) : Bytes :=
  if isAbsolute q then q
  else if p = [] ∨ p.getLast? = some 0x2F then p ++ q
  else p ++ 0x2F :: q

/-- `extension` of a path. -/
def extension (p : Bytes) : Bytes :=
  let filename := ((components p).getLast?).getD []
  if filename = lit "." ∨ filename = lit ".." then []
  else
    let suffix := filename.reverse.takeWhile (· != 0x2E)
    -- the last dot is missing, or it is the first character
    if filename.length ≤ suffix.length + 1 then [] else 0x2E :: suffix.reverse

/-- The table of `GetMimeType`. -/
def mimeTypes : List (Bytes × Bytes) :=
  [(lit ".html", lit "text/html"), (lit ".htm", lit "text/html"), (lit ".css", lit "text/css"),
    (lit ".js", lit "application/javascript"), (lit ".json", lit "application/json"),
    (lit ".png", lit "image/png"), (lit ".jpg", lit "image/jpeg"), (lit ".jpeg", lit "image/jpeg"),
    (lit ".gif", lit "image/gif"), (lit ".svg", lit "image/svg+xml"),
    (lit ".ico", lit "image/x-icon"), (lit ".txt", lit "text/plain"),
    (lit ".xml", lit "application/xml"), (lit ".pdf", lit "application/pdf"),
    (lit ".zip", lit "application/zip"), (lit ".mp3", lit "audio/mpeg"),
    (lit ".mp4", lit "video/mp4")]

/-- `GetMimeType`. -/
def getMimeType (ext : Bytes) : Bytes :=
  (mimeTypes.lookup ext).getD (lit "application/octet-stream")

/-- What is left of the request path behind the prefix, with a slash in front. -/
def relativePath (urlPrefix path : Bytes) : Bytes :=
  let rest := path.drop urlPrefix.length
  if isAbsolute rest then rest else 0x2F :: rest

/-- The file that `HandleStaticFile` opens for a request: its path and its content. -/
def openStaticFile (fs : FileSystem) (urlPrefix rootDir path : Bytes) :
    Except StdException (Option (Bytes × Bytes)) :=
  if path.length < urlPrefix.length then .error .outOfRange
  else
    let relative := relativePath urlPrefix path
    if Search.contains (lit "..") relative then .ok none
    else
      let filePath := joinPath rootDir (relative.drop 1)
      .ok ((fs.openRegular (cString filePath)).map fun content => (filePath, content))

/-- `HandleStaticFile`. -/
def handleStaticFile (fs : FileSystem) (urlPrefix rootDir path : Bytes) (resp : HttpResponse) :
    Except StdException (Bool × HttpResponse) :=
  (openStaticFile fs urlPrefix rootDir path).map fun
    | none => (false, resp)
    | some (filePath, content) =>
      (true, (resp.setBody content).setContentType (getMimeType (extension filePath)))

/-- Behind a prefix of the path nothing is thrown. -/
theorem openStaticFile_ok (fs : FileSystem) {urlPrefix : Bytes} (rootDir : Bytes) {path : Bytes}
    (h : urlPrefix <+: path) : ∃ file, openStaticFile fs urlPrefix rootDir path = .ok file := by
  unfold openStaticFile
  rw [if_neg (Nat.not_lt.mpr h.length_le)]
  simp only
  split <;> exact ⟨_, rfl⟩

/-! ## Names under the root -/

/-- Joining to a root puts the components of the operand behind those of the root. -/
theorem components_joinPath {p q : Bytes} (hq : isAbsolute q = false) :
    ∃ pre, components (joinPath p q) = pre ++ components q
      ∧ ∀ place, LexicalPath.resolve motion place pre
        = LexicalPath.resolve motion place (components p) := by
  unfold joinPath
  rw [hq]
  simp only [Bool.false_eq_true, if_false]
  have hstay : motion [] = .stay := by decide
  by_cases hp : p = []
  · subst hp
    refine ⟨[], by simp, fun place => ?_⟩
    simp [components, LexicalPath.resolve, LexicalPath.move, hstay]
  by_cases hlast : p.getLast? = some 0x2F
  · obtain ⟨r, rfl⟩ := List.getLast?_eq_some_iff.mp hlast
    refine ⟨components r, ?_, fun place => ?_⟩
    · rw [if_pos (Or.inr hlast), List.append_assoc]
      exact List.splitOn_append_cons_self r q
    · have hsplit : components (r ++ [0x2F]) = components r ++ [[]] :=
        List.splitOn_append_cons_self r []
      rw [hsplit, LexicalPath.resolve_append, LexicalPath.resolve, LexicalPath.resolve,
        List.foldl_cons, LexicalPath.move, hstay]
      rfl
  · refine ⟨components p, ?_, fun place => rfl⟩
    rw [if_neg (by simp [hp, hlast])]
    exact List.splitOn_append_cons_self p q

theorem isAbsolute_joinPath {p q : Bytes} (hq : isAbsolute q = false) :
    isAbsolute (joinPath p q) = isAbsolute p := by
  unfold joinPath
  rw [hq]
  cases p with
  | nil =>
    simp only [Bool.false_eq_true, if_false, true_or, if_true, List.nil_append]
    exact hq
  | cons c p =>
    simp only [Bool.false_eq_true, if_false]
    split <;> rfl

theorem isAbsolute_cString {q : Bytes} (hq : isAbsolute q = false) :
    isAbsolute (cString q) = false := by
  cases q with
  | nil => exact hq
  | cons c q =>
    by_cases hc : c = 0
    · simp [cString, hc, isAbsolute]
    · simpa [cString, hc, isAbsolute] using hq

/-- A null byte cuts the joined name where it cuts the operand. -/
theorem cString_joinPath {p q : Bytes} (hq : isAbsolute q = false) (hp : 0 ∉ p) :
    cString (joinPath p q) = joinPath p (cString q) := by
  have htake : ∀ c ∈ p, (c != 0) = true := by
    intro c hc
    simp only [bne_iff_ne, ne_eq]
    rintro rfl
    exact hp hc
  unfold joinPath
  rw [hq, isAbsolute_cString hq]
  simp only [Bool.false_eq_true, if_false, cString]
  split
  · rw [List.takeWhile_append_of_pos htake]
  · rw [List.takeWhile_append_of_pos htake]
    simp

/-- A component of a name occurs in it. -/
theorem infix_of_mem_components {c name : Bytes} (h : c ∈ components name) : c <:+: name := by
  have hmem : ∀ l : List Bytes, c ∈ l → c ∈ l.intersperse [0x2F] := by
    intro l hl
    induction l with
    | nil => cases hl
    | cons d l ih =>
      cases l with
      | nil => exact hl
      | cons e l =>
        rw [List.intersperse_cons_cons]
        rcases List.mem_cons.mp hl with rfl | hl
        · exact List.mem_cons_self
        · exact List.mem_cons_of_mem _ (List.mem_cons_of_mem _ (ih hl))
  have hjoin : [0x2F].intercalate (components name) = name := List.intercalate_splitOn 0x2F
  have hinfix := List.infix_of_mem_flatten (hmem _ h)
  rwa [← List.intercalate, hjoin] at hinfix

/-- No component of a name without `..` goes up. -/
theorem motion_ne_up {name : Bytes} (h : Search.contains (lit "..") name = false) :
    ∀ c ∈ components name, motion c ≠ .up := by
  intro c hc hup
  have hdots : c = lit ".." := by
    unfold motion at hup
    split at hup
    · cases hup
    · split at hup
      · assumption
      · cases hup
  subst hdots
  rw [Search.contains_of_infix (infix_of_mem_components hc)] at h
  cases h

namespace FileSystem

open LexicalPath

variable (fs : FileSystem)

/-- A file that is opened is a regular file at the place of its name. -/
theorem openRegular_some {name content : Bytes} (h : fs.openRegular name = some content) :
    walk motion fs.isDir (fs.start name) (components name) = some (fs.place name)
      ∧ fs.isDir (fs.place name) = false := by
  unfold openRegular at h
  cases hstat : fs.stat name with
  | none =>
    rw [hstat] at h
    cases h
  | some n =>
    rw [hstat] at h
    unfold stat at hstat
    split at hstat
    · cases hstat
    obtain ⟨p, hwalk, hnode⟩ := Option.bind_eq_some_iff.mp hstat
    have hp : p = fs.place name := walk_eq_resolve hwalk
    subst hp
    refine ⟨hwalk, ?_⟩
    cases n with
    | directory => cases h
    | regular content' readable => simp [isDir, hnode]
    | special => cases h

/-- **Under the root.** A file that is opened under a name made of the root and a
relative operand without `..` lies below the root. -/
theorem below_of_openRegular {rootDir operand content : Bytes} (hrel : isAbsolute operand = false)
    (hdots : Search.contains (lit "..") operand = false)
    (h : fs.openRegular (joinPath rootDir operand) = some content) :
    Below (fs.place rootDir) (fs.place (joinPath rootDir operand)) := by
  obtain ⟨hwalk, hfile⟩ := fs.openRegular_some h
  obtain ⟨pre, hcomp, hpre⟩ := components_joinPath (p := rootDir) hrel
  have hstart : fs.start (joinPath rootDir operand) = fs.start rootDir := by
    rw [start, isAbsolute_joinPath hrel, start]
  rw [hcomp, hstart] at hwalk
  have hwalk' := walk_append hwalk
  rw [hpre] at hwalk'
  exact below_of_walk (motion_ne_up hdots) (List.splitOn_ne_nil _ _) hwalk' hfile

end FileSystem

/-- The operand is absolute exactly if two slashes follow the prefix. -/
theorem isAbsolute_operand_iff (urlPrefix path : Bytes) :
    isAbsolute ((relativePath urlPrefix path).drop 1) = true
      ↔ lit "//" <+: path.drop urlPrefix.length := by
  unfold relativePath
  cases path.drop urlPrefix.length with
  | nil => decide
  | cons c t =>
    by_cases hc : c = 0x2F
    · subst hc
      cases t with
      | nil => decide
      | cons d t =>
        show (some d == some 0x2F) = true ↔ [0x2F, 0x2F] <+: 0x2F :: d :: t
        rw [List.cons_prefix_cons, List.cons_prefix_cons, beq_iff_eq, Option.some.injEq]
        exact ⟨fun h => ⟨rfl, h.symm, List.nil_prefix⟩, fun h => h.2.1.symm⟩
    · have hlit : ¬ lit "//" <+: c :: t := by
        show ¬ [0x2F, 0x2F] <+: c :: t
        rw [List.cons_prefix_cons]
        exact fun h => hc h.1.symm
      simp [isAbsolute, hc, hlit]

/-! ## Confinement -/

theorem cString_append_of_mem {p : Bytes} (h : 0 ∈ p) (t : Bytes) :
    cString (p ++ t) = cString p := by
  induction p with
  | nil => cases h
  | cons c p ih =>
    by_cases hc : c = 0
    · simp [cString, hc]
    · have hmem : 0 ∈ p := (List.mem_cons.mp h).resolve_left (fun he => hc he.symm)
      simpa [cString, hc] using ih hmem

/-- Below a root with a null byte every joined name is the root. -/
theorem cString_joinPath_of_mem {p q : Bytes} (hq : isAbsolute q = false) (hp : 0 ∈ p) :
    cString (joinPath p q) = cString p := by
  unfold joinPath
  rw [hq]
  simp only [Bool.false_eq_true, if_false]
  split <;> exact cString_append_of_mem hp _

/-- **The request strays from the root.** Two slashes behind the prefix make the rest
an absolute path, and it names a file that can be opened and is not below the root;
or the root directory itself is cut short by a null byte and names a file. -/
def Strays (fs : FileSystem) (urlPrefix rootDir path : Bytes) : Prop :=
  let rest := path.drop urlPrefix.length
  Search.contains (lit "..") (relativePath urlPrefix path) = false ∧
    (lit "//" <+: rest ∧ (fs.openRegular (cString (rest.drop 1))).isSome
        ∧ ¬ LexicalPath.Below (fs.place (cString rootDir)) (fs.place (cString (rest.drop 1)))
      ∨ ¬ lit "//" <+: rest ∧ 0 ∈ rootDir ∧ (fs.openRegular (cString rootDir)).isSome)

/-- **Every file that is opened for the request lies below the root.** -/
def Confined (fs : FileSystem) (urlPrefix rootDir path : Bytes) : Prop :=
  ∀ filePath content, openStaticFile fs urlPrefix rootDir path = .ok (some (filePath, content)) →
    LexicalPath.Below (fs.place (cString rootDir)) (fs.place (cString filePath))

/-- What is opened for a request whose path starts with the prefix. -/
theorem openStaticFile_some_iff {fs : FileSystem} {urlPrefix rootDir path : Bytes}
    (h : urlPrefix <+: path) {filePath content : Bytes} :
    openStaticFile fs urlPrefix rootDir path = .ok (some (filePath, content))
      ↔ Search.contains (lit "..") (relativePath urlPrefix path) = false
        ∧ filePath = joinPath rootDir ((relativePath urlPrefix path).drop 1)
        ∧ fs.openRegular (cString filePath) = some content := by
  unfold openStaticFile
  rw [if_neg (Nat.not_lt.mpr h.length_le)]
  cases hdots : Search.contains (lit "..") (relativePath urlPrefix path) with
  | true => simp [hdots]
  | false =>
    simp only [hdots, Bool.false_eq_true, if_false, Except.ok.injEq, Option.map_eq_some_iff,
      Prod.mk.injEq, true_and]
    constructor
    · rintro ⟨c, hc, rfl, rfl⟩
      exact ⟨rfl, hc⟩
    · rintro ⟨rfl, hc⟩
      exact ⟨content, hc, rfl, rfl⟩

/-- With a relative operand and a root without null bytes nothing outside the root
is opened. -/
theorem confined_of_relative {fs : FileSystem} {urlPrefix rootDir path : Bytes}
    (h : urlPrefix <+: path) (hrel : ¬ lit "//" <+: path.drop urlPrefix.length)
    (hroot : 0 ∉ rootDir) : Confined fs urlPrefix rootDir path := by
  intro filePath content hopen
  obtain ⟨hdots, rfl, hfile⟩ := (openStaticFile_some_iff h).mp hopen
  set operand := (relativePath urlPrefix path).drop 1 with hop
  have hrel' : isAbsolute operand = false := by
    rw [← Bool.not_eq_true, hop, isAbsolute_operand_iff]
    exact hrel
  have hsub : cString operand <:+: relativePath urlPrefix path :=
    (List.takeWhile_prefix _).isInfix.trans (List.drop_suffix 1 _).isInfix
  have hdots' : Search.contains (lit "..") (cString operand) = false := by
    by_contra hcontra
    rw [Bool.not_eq_false] at hcontra
    have hmem := (Search.infix_of_contains hcontra).trans hsub
    rw [Search.contains_of_infix hmem] at hdots
    cases hdots
  have hnull : cString rootDir = rootDir := by
    rw [cString, List.takeWhile_eq_self_iff]
    intro c hc
    simp only [bne_iff_ne, ne_eq]
    rintro rfl
    exact hroot hc
  rw [cString_joinPath hrel' hroot] at hfile ⊢
  rw [hnull]
  exact fs.below_of_openRegular (isAbsolute_cString hrel') hdots' hfile

/-- **Exactly when static files are confined to their root**: unless the request
strays from it. -/
theorem static_confined_iff (fs : FileSystem) (urlPrefix rootDir path : Bytes)
    (h : urlPrefix <+: path) :
    Confined fs urlPrefix rootDir path ↔ ¬ Strays fs urlPrefix rootDir path := by
  set rest := path.drop urlPrefix.length with hrest
  have hjoin : lit "//" <+: rest →
      joinPath rootDir ((relativePath urlPrefix path).drop 1) = rest.drop 1 := by
    intro hslash
    have habs := (isAbsolute_operand_iff urlPrefix path).mpr hslash
    obtain ⟨t, ht⟩ := hslash
    have hrel : relativePath urlPrefix path = rest := by
      rw [relativePath, ← hrest, ← ht]
      rfl
    rw [joinPath, habs, if_pos rfl, hrel]
  have hrel' : ¬ lit "//" <+: rest →
      isAbsolute ((relativePath urlPrefix path).drop 1) = false := by
    intro hslash
    rw [← Bool.not_eq_true, isAbsolute_operand_iff]
    exact hslash
  constructor
  · rintro hconf ⟨hdots, ⟨hslash, hopen, hbelow⟩ | ⟨hslash, hnull, hopen⟩⟩
    · obtain ⟨content, hc⟩ := Option.isSome_iff_exists.mp hopen
      refine hbelow (hconf _ content ((openStaticFile_some_iff h).mpr ⟨hdots, ?_, hc⟩))
      exact (hjoin hslash).symm
    · obtain ⟨content, hc⟩ := Option.isSome_iff_exists.mp hopen
      have hname := cString_joinPath_of_mem (hrel' hslash) hnull
      obtain ⟨tail, hne, hself⟩ := hconf _ content
        ((openStaticFile_some_iff h).mpr ⟨hdots, rfl, by rw [hname]; exact hc⟩)
      rw [hname] at hself
      exact hne (List.self_eq_append_right.mp hself)
  · intro hno filePath content hopen
    have hopen' := (openStaticFile_some_iff h).mp hopen
    obtain ⟨hdots, hpath, hc⟩ := hopen'
    by_contra hbelow
    by_cases hslash : lit "//" <+: rest
    · rw [hjoin hslash] at hpath
      subst hpath
      exact hno ⟨hdots, Or.inl ⟨hslash, by rw [← hrest, hc]; rfl, hbelow⟩⟩
    · by_cases hnull : 0 ∈ rootDir
      · rw [hpath, cString_joinPath_of_mem (hrel' hslash) hnull] at hc
        exact hno ⟨hdots, Or.inr ⟨hslash, hnull, by rw [hc]; rfl⟩⟩
      · exact hbelow (confined_of_relative h hslash hnull filePath content hopen)

/-- A file system with a file outside the directory `/srv`. -/
def passwdSystem : FileSystem where
  node p :=
    if p = [] ∨ p = [lit "etc"] ∨ p = [lit "srv"] then some .directory
    else if p = [lit "etc", lit "passwd"] then some (.regular (lit "root") true)
    else none
  cwd := []

/-- Two slashes behind the prefix make the server read `/etc/passwd`. -/
theorem passwd_not_confined :
    openStaticFile passwdSystem (lit "/static") (lit "/srv") (lit "/static//etc/passwd")
        = .ok (some (lit "/etc/passwd", lit "root"))
      ∧ ¬ Confined passwdSystem (lit "/static") (lit "/srv") (lit "/static//etc/passwd") := by
  have hopen : openStaticFile passwdSystem (lit "/static") (lit "/srv") (lit "/static//etc/passwd")
      = .ok (some (lit "/etc/passwd", lit "root")) := by decide +kernel
  refine ⟨hopen, fun h => ?_⟩
  obtain ⟨tail, -, he⟩ := h _ _ hopen
  have hplace : passwdSystem.place (cString (lit "/etc/passwd")) = [lit "etc", lit "passwd"] := by
    decide +kernel
  have hroot : passwdSystem.place (cString (lit "/srv")) = [lit "srv"] := by decide +kernel
  rw [hplace, hroot, List.singleton_append, List.cons.injEq] at he
  exact absurd he.1 (by decide)

/-- The criterion on that request. -/
theorem static_confined_iff_passwd :
    Confined passwdSystem (lit "/static") (lit "/srv") (lit "/static//etc/passwd")
      ↔ ¬ Strays passwdSystem (lit "/static") (lit "/srv") (lit "/static//etc/passwd") :=
  static_confined_iff _ _ _ _ ⟨lit "//etc/passwd", by decide⟩
