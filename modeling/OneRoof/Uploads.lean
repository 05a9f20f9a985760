import OneRoof.Lib.Paths

/-!
# GET /uploads/:id

The router matches `:id` on the raw path, where only `/` separates segments and
a backslash is an ordinary character. The handler parses the same target again
with `url.parse`, which turns every backslash before the query into `/`, and
reads the file at `'.' + pathname`. The router ignores the case of the path and
one `/` at its end; the file system does not.
-/

namespace OneRoof

open Paths

/-- The characters of a request target before its query. -/
def rawPath (url : List Char) : List Char := url.takeWhile (fun c => c ≠ '?' ∧ c ≠ '#')

/-- A target the pattern matches: the first segment as it was spelled, what `:id`
stands for, and whether one more `/` follows. -/
structure UploadTarget where
  dir : List Char
  id : List Char
  slash : Bool
  deriving DecidableEq

def uploadTarget (url : List Char) : Option UploadTarget :=
  match (rawPath url).splitOn '/' with
  | [[], dir, id] =>
    if dir.map Char.toLower = "uploads".toList ∧ id ≠ [] then some ⟨dir, id, false⟩ else none
  | [[], dir, id, []] =>
    if dir.map Char.toLower = "uploads".toList ∧ id ≠ [] then some ⟨dir, id, true⟩ else none
  | _ => none

def slashed (c : Char) : Char := if c = '\\' then '/' else c

/-- `url.parse(req.url, true).pathname`. -/
def parsedPathname (url : List Char) : List Char := (rawPath url).map slashed

/-- The segments of the path given to `fs.readFileSync`. -/
def uploadSegments (url : List Char) : List String :=
  (('.' :: parsedPathname url).splitOn '/').map String.ofList

/-- The file the handler answers with, from a server started in `cwd`. -/
def getUpload (fs : FileSystem) (cwd : List String) (url : List Char) :
    Option (List String × String) :=
  read fs cwd (uploadSegments url)

/-- The pieces into which backslashes cut what `:id` stands for. -/
def pieces (id : List Char) : List String := (id.splitOn '\\').map String.ofList

def UploadTarget.segments (t : UploadTarget) : List String :=
  "." :: String.ofList t.dir :: pieces t.id ++ if t.slash then [""] else []

/-- The path ends at a directory whatever the files are, or it crosses its own
target, or the pieces before the last one lead back to `uploads`. -/
def StaysInUploads (cwd : List String) (t : UploadTarget) : Prop :=
  t.slash = true ∨ (∃ last ∈ (pieces t.id).getLast?, Dots last) ∨
    (∃ v ∈ visited cwd t.segments, resolve cwd t.segments <:+ v) ∨
    resolve (String.ofList t.dir :: cwd) (pieces t.id).dropLast = "uploads" :: cwd

/-- Cutting at `/` after the conversion is cutting at backslashes before it. -/
theorem splitOn_slashed (cs : List Char) (raw : '/' ∉ cs) :
    (cs.map slashed).splitOn '/' = cs.splitOn '\\' := by
  induction cs with
  | nil => rfl
  | cons c cs ih =>
    have hc : c ≠ '/' := fun h => raw (h ▸ List.mem_cons_self)
    have ht := ih (fun h => raw (List.mem_cons_of_mem c h))
    rw [List.map_cons, List.splitOn_cons_eq_if_modifyHead,
      List.splitOn_cons_eq_if_modifyHead, ht]
    by_cases hb : c = '\\'
    · simp [hb, slashed]
    · simp [slashed, hb, hc]

theorem splitOn_parts {cs : List Char} {ps : List (List Char)} (h : cs.splitOn '/' = ps) :
    ['/'].intercalate ps = cs ∧ ∀ p ∈ ps, '/' ∉ p := by
  subst h
  refine ⟨List.intercalate_splitOn '/', ?_⟩
  induction cs with
  | nil => simp
  | cons c cs ih =>
    rw [List.splitOn_cons_eq_if_modifyHead]
    by_cases hc : c = '/'
    · simp only [hc, beq_self_eq_true, if_true, List.forall_mem_cons, List.not_mem_nil,
        not_false_eq_true, true_and]
      exact ih
    · obtain ⟨p, ps, hp⟩ := List.exists_cons_of_ne_nil (List.splitOn_ne_nil '/' cs)
      rw [hp] at ih ⊢
      simp only [hc, beq_iff_eq, if_false, List.modifyHead_cons, List.forall_mem_cons] at ih ⊢
      refine ⟨?_, ih.2⟩
      intro h
      rcases List.mem_cons.mp h with h | h
      · exact hc h.symm
      · exact ih.1 h

theorem toLower_eq_uploads {dir : List Char} (h : dir.map Char.toLower = "uploads".toList) :
    '\\' ∉ dir ∧ ¬ Dots (String.ofList dir) := by
  have hlen : dir.length = 7 := by
    have := congrArg List.length h
    simpa using this
  constructor
  · intro hb
    have hm : Char.toLower '\\' ∈ dir.map Char.toLower := List.mem_map_of_mem hb
    rw [h] at hm
    revert hm
    decide
  · rintro (h | h | h)
    all_goals
      have := congrArg (fun s => s.toList.length) h
      simp [hlen] at this

theorem map_slashed_eq {dir : List Char} (h : '\\' ∉ dir) : dir.map slashed = dir := by
  have same : ∀ c ∈ dir, slashed c = id c := by
    intro c hc
    have ne : c ≠ '\\' := fun heq => h (heq ▸ hc)
    simp [slashed, ne]
  rw [List.map_congr_left same, List.map_id]

theorem segments_of_parts {url dir id : List Char} (slash : Bool)
    (hs : (rawPath url).splitOn '/' = [] :: dir :: id :: if slash then [[]] else [])
    (hdir : dir.map Char.toLower = "uploads".toList) :
    uploadSegments url = (UploadTarget.mk dir id slash).segments := by
  obtain ⟨hjoin, hraw⟩ := splitOn_parts hs
  have hd : '/' ∉ dir := hraw dir (by simp)
  have hi : '/' ∉ id := hraw id (by simp)
  have hdir' := map_slashed_eq (toLower_eq_uploads hdir).1
  have hslash : slashed '/' = '/' := by decide
  have front : ∀ rest, ('.' :: '/' :: (dir ++ '/' :: rest)).splitOn '/' =
      ['.'] :: dir :: rest.splitOn '/' := by
    intro rest
    have hdot := List.splitOn_append_cons_self_of_not_mem (a := '/')
      (show '/' ∉ ['.'] by decide) (dir ++ '/' :: rest)
    rw [List.splitOn_append_cons_self_of_not_mem hd] at hdot
    exact hdot
  cases slash with
  | false =>
    have hpath : rawPath url = '/' :: (dir ++ '/' :: id) := by
      rw [← hjoin]
      simp
    simp only [uploadSegments, parsedPathname, hpath, List.map_cons, List.map_append, hslash,
      hdir', front, splitOn_slashed id hi]
    simp [UploadTarget.segments, pieces]
  | true =>
    have hpath : rawPath url = '/' :: (dir ++ '/' :: (id ++ ['/'])) := by
      rw [← hjoin]
      simp
    simp only [uploadSegments, parsedPathname, hpath, List.map_cons, List.map_append, hslash,
      hdir', front, List.map_nil, List.splitOn_append_cons_self, splitOn_slashed id hi]
    simp [UploadTarget.segments, pieces]

/-- What the handler reads, in terms of what the router matched. -/
theorem uploadSegments_eq {url : List Char} {t : UploadTarget}
    (matched : uploadTarget url = some t) :
    uploadSegments url = t.segments ∧ ¬ Dots (String.ofList t.dir) := by
  unfold uploadTarget at matched
  split at matched
  · rename_i dir id hs
    split at matched
    · rename_i hc
      cases matched
      exact ⟨segments_of_parts false hs hc.1, (toLower_eq_uploads hc.1).2⟩
    · cases matched
  · rename_i dir id hs
    split at matched
    · rename_i hc
      cases matched
      exact ⟨segments_of_parts true hs hc.1, (toLower_eq_uploads hc.1).2⟩
    · cases matched
  · cases matched

theorem pieces_ne_nil (id : List Char) : pieces id ≠ [] := by
  simp [pieces, List.splitOn_ne_nil]

/-- Where the path ends when its last piece is a name. -/
theorem resolve_segments (cwd : List String) {t : UploadTarget} (last : String)
    (init : List String) (hp : pieces t.id = init ++ [last]) (name : ¬ Dots last)
    (hdir : ¬ Dots (String.ofList t.dir)) (noSlash : t.slash = false) :
    resolve cwd t.segments = last :: resolve (String.ofList t.dir :: cwd) init := by
  have hdot : move cwd "." = cwd := by simp [move]
  have hsegs : t.segments = ["."] ++ ([String.ofList t.dir] ++ (init ++ [last])) := by
    simp [UploadTarget.segments, hp, noSlash]
  rw [hsegs, resolve_append, resolve_append, resolve_append]
  change move (resolve (move (move cwd ".") _) init) last = _
  rw [move_name name, hdot, move_name hdir]

/-- A path that ends in `/`, or whose last piece is not a name, reads no file. -/
theorem read_directory (fs : FileSystem) (cwd : List String) (t : UploadTarget)
    (directory : t.slash = true ∨ ∃ last ∈ (pieces t.id).getLast?, Dots last) :
    read fs cwd t.segments = none := by
  by_cases slash : t.slash = true
  · have hs : t.segments = ("." :: String.ofList t.dir :: pieces t.id) ++ [""] := by
      simp [UploadTarget.segments, slash]
    rw [hs]
    exact read_dots fs cwd _ (Or.inl rfl)
  · obtain ⟨last, hmem, dots⟩ := directory.resolve_left slash
    have hs : t.segments =
        ("." :: String.ofList t.dir :: (pieces t.id).dropLast) ++ [last] := by
      have hlast := List.dropLast_append_getLast? last hmem
      simp only [UploadTarget.segments, slash]
      rw [← hlast]
      simp
    rw [hs]
    exact read_dots fs cwd _ dots

/-- For every matched path: whatever the files are, only direct children of
`./uploads` are answered, exactly when the path stays in `uploads`. -/
theorem upload_confined_iff (cwd : List String) (url : List Char) (t : UploadTarget)
    (matched : uploadTarget url = some t) :
    (∀ fs loc content, getUpload fs cwd url = some (loc, content) →
      ∃ name, loc = name :: "uploads" :: cwd) ↔ StaysInUploads cwd t := by
  obtain ⟨hsegs, hdir⟩ := uploadSegments_eq matched
  obtain ⟨last, hget⟩ : ∃ last, (pieces t.id).getLast? = some last :=
    ⟨_, List.getLast?_eq_some_getLast (pieces_ne_nil t.id)⟩
  have hlast := (List.dropLast_append_getLast? last hget).symm
  simp only [getUpload, hsegs]
  constructor
  · intro confined
    by_contra leaves
    unfold StaysInUploads at leaves
    push Not at leaves
    obtain ⟨noSlash, name, clear, away⟩ := leaves
    have hres := resolve_segments cwd _ _ hlast (name last hget) hdir
      (by simpa using noSlash)
    have served := read_only cwd t.segments (by rw [hres]; simp) clear
    obtain ⟨n, hn⟩ := confined _ _ _ served
    rw [hres] at hn
    exact away (List.cons.inj hn).2
  · intro stays fs loc content served
    by_cases directory : t.slash = true ∨ ∃ last ∈ (pieces t.id).getLast?, Dots last
    · rw [read_directory fs cwd t directory] at served
      cases served
    · push Not at directory
      rcases stays with slash | ⟨other, hmem, dots⟩ | blocked | home
      · exact absurd slash directory.1
      · exact absurd dots (directory.2 other hmem)
      · rw [read_blocked fs cwd _ blocked] at served
        cases served
      · have hres := resolve_segments cwd _ _ hlast (directory.2 last hget) hdir
          (by simpa using directory.1)
        exact ⟨last, by rw [read_location served, hres, home]⟩

/-- An ordinary upload: one piece, under `uploads` as the server spells it. -/
theorem upload_confined_plain :
    uploadTarget "/uploads/5f1c.png".toList = some ⟨"uploads".toList, "5f1c.png".toList, false⟩ ∧
    ∀ fs loc content, getUpload fs ["oneroof"] "/uploads/5f1c.png".toList = some (loc, content) →
      ∃ name, loc = name :: "uploads" :: ["oneroof"] :=
  ⟨by decide, (upload_confined_iff ["oneroof"] "/uploads/5f1c.png".toList
    ⟨"uploads".toList, "5f1c.png".toList, false⟩ (by decide)).mpr
      (Or.inr (Or.inr (Or.inr (by decide))))⟩

/-- The database credentials stand one directory up. -/
theorem upload_reads_secret :
    uploadTarget "/uploads/..\\secret\\config-maria.json".toList =
      some ⟨"uploads".toList, "..\\secret\\config-maria.json".toList, false⟩ ∧
    ∃ fs loc content,
      getUpload fs ["oneroof"] "/uploads/..\\secret\\config-maria.json".toList =
        some (loc, content) ∧
      loc = ["config-maria.json", "secret", "oneroof"] ∧
      ¬ ∃ name, loc = name :: "uploads" :: ["oneroof"] := by
  refine ⟨by decide, only ["config-maria.json", "secret", "oneroof"] (by decide), _, "",
    ?_, rfl, ?_⟩
  · decide
  · rintro ⟨name, h⟩
    have := (List.cons.inj h).2
    simp at this

end OneRoof
