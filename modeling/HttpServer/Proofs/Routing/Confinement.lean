import HttpServer.Proofs.Exchange.Performing
import HttpServer.Proofs.Exchange.Wire
import HttpServer.Routing.Mount
import Mathlib.Data.List.Basic

/-!
# Mounts stay in their directory

The path that a mount looks up is its root followed by names that do not climb
(`Mount.confined_filePath`): the stem was cut off at the border of a name, no name of the path is
`..`, and what is left does not start with a slash. All that a mount does with the files it does at
this path, and if the veto forbids the request or its path could climb, it does nothing with the
files and answers with 403 (`Mount.handler_confined`).
-/

namespace HttpServer

/-! ## Names of a path -/

/-- A text is split at a separator into the parts of what stands around it. -/
theorem splitAll_append_cons {isSeparator : Char → Bool} {c : Char} (h : isSeparator c = true)
    (before after : List Char) :
    splitAll isSeparator (before ++ c :: after) =
      splitAll isSeparator before ++ splitAll isSeparator after := by
  induction before with
  | nil => simp [splitAll, h]
  | cons first before ih =>
      rw [List.cons_append, splitAll, splitAll, ih]
      cases hparts : splitAll isSeparator before with
      | nil => exact absurd hparts (splitAll_ne_nil _ _)
      | cons part parts => split <;> rfl

/-- With more separators, parts that hold none of the new ones stay parts. The first part of a text
grows with the text, so it is kept apart from the others. -/
theorem splitAll_of_imp {coarse fine : Char → Bool} (h : ∀ c, coarse c = true → fine c = true)
    (cs : List Char) :
    ∃ first rest found others, splitAll coarse cs = first :: rest ∧
      splitAll fine cs = found :: others ∧ ((∀ c ∈ first, fine c = false) → found = first) ∧
      ∀ part ∈ rest, (∀ c ∈ part, fine c = false) → part ∈ others := by
  induction cs with
  | nil => exact ⟨[], [], [], [], rfl, rfl, fun _ => rfl, nofun⟩
  | cons c cs ih =>
      obtain ⟨first, rest, found, others, hcoarse, hfine, hfirst, hrest⟩ := ih
      rw [splitAll, splitAll, hcoarse, hfine]
      by_cases hc : coarse c = true
      · -- Both cut here, and the first part so far becomes one of the others.
        refine ⟨[], first :: rest, [], found :: others, by rw [if_pos hc],
          by rw [if_pos (h c hc)], fun _ => rfl, ?_⟩
        intro part hmem hclean
        rcases List.mem_cons.1 hmem with rfl | hmem
        · rw [hfirst hclean]
          exact List.mem_cons_self
        · exact List.mem_cons_of_mem _ (hrest part hmem hclean)
      by_cases hf : fine c = true
      · -- Only the finer separators cut, so the first part holds one of them.
        refine ⟨c :: first, rest, [], found :: others, by rw [if_neg hc], by rw [if_pos hf], ?_, ?_⟩
        · intro hclean
          rw [hclean c List.mem_cons_self] at hf
          cases hf
        · intro part hmem hclean
          exact List.mem_cons_of_mem _ (hrest part hmem hclean)
      · refine ⟨c :: first, rest, c :: found, others, by rw [if_neg hc],
          by rw [if_neg hf], ?_, hrest⟩
        intro hclean
        rw [hfirst fun other hother => hclean other (List.mem_cons_of_mem _ hother)]

/-- A part that more separators would not split is one that they leave. -/
theorem mem_splitAll_of_imp {coarse fine : Char → Bool} (h : ∀ c, coarse c = true → fine c = true)
    {part cs : List Char} (hpart : ∀ c ∈ part, fine c = false) (hmem : part ∈ splitAll coarse cs) :
    part ∈ splitAll fine cs := by
  obtain ⟨first, rest, found, others, hcoarse, hfine, hfirst, hrest⟩ := splitAll_of_imp h cs
  rw [hcoarse] at hmem
  rw [hfine]
  rcases List.mem_cons.1 hmem with rfl | hmem
  · rw [hfirst hpart]
    exact List.mem_cons_self
  · exact List.mem_cons_of_mem _ (hrest part hmem hpart)

/-- The names in a text that slashes separate. -/
def namesIn (cs : List Char) : List (List Char) := (splitAll (· == '/') cs).filter (· ≠ [])

/-- The names around a slash are those of either side. -/
theorem namesIn_append_slash (before after : List Char) :
    namesIn (before ++ '/' :: after) = namesIn before ++ namesIn after := by
  rw [namesIn, splitAll_append_cons (by decide), List.filter_append]
  rfl

/-- **Lexically confined.** The path is the root followed by names that do not climb, and it starts
at the top of the tree only if the root does. -/
def Confined (root path : String) : Prop :=
  ∃ names, ['.', '.'] ∉ names ∧ namesIn path.toList = namesIn root.toList ++ names ∧
    (path.toList.head? = some '/' ↔ root.toList.head? = some '/')

theorem namesIn_nil : namesIn [] = [] := rfl

/-- **A relative path without `..` stays below the root** that it is joined to. -/
theorem confined_joinPath {root path : String} (hrelative : path.toList.head? ≠ some '/')
    (hnames : ['.', '.'] ∉ namesIn path.toList) : Confined root (joinPath root path) := by
  refine ⟨namesIn path.toList, hnames, ?_⟩
  rw [joinPath, if_neg hrelative]
  by_cases hempty : root = ""
  · rw [hempty, if_pos (.inl rfl), String.toList_append, String.toList_empty, List.nil_append,
      namesIn_nil, List.nil_append]
    exact ⟨rfl, fun hpath => absurd hpath hrelative, nofun⟩
  have hne : root.toList ≠ [] := by simpa using hempty
  by_cases hslash : root.toList.getLast? = some '/'
  · obtain ⟨front, hfront⟩ := List.getLast?_eq_some_iff.1 hslash
    have hjoined : (root ++ path).toList = front ++ '/' :: path.toList := by
      rw [String.toList_append, hfront, List.append_assoc]
      rfl
    rw [if_pos (.inr hslash), hjoined, namesIn_append_slash, hfront, namesIn_append_slash,
      namesIn_nil, List.append_nil]
    refine ⟨rfl, ?_⟩
    rw [List.head?_append, List.head?_append]
    rfl
  · have hjoined : (root ++ "/" ++ path).toList = root.toList ++ '/' :: path.toList := by
      rw [String.toList_append, String.toList_append, List.append_assoc]
      rfl
    rw [if_neg (not_or.2 ⟨hempty, hslash⟩), hjoined, namesIn_append_slash]
    refine ⟨rfl, ?_⟩
    cases hchars : root.toList with
    | nil => exact absurd hchars hne
    | cons c cs => exact Iff.rfl

namespace Mount

variable {ν : Type}

/-- Either separator. -/
def isSlash (c : Char) : Bool := c == '/' || c == '\\'

/-- What is left of a path behind the stem is rid of the slashes in front. -/
theorem relativePath_eq {m : Mount ν} {path : String} {rest : List Char}
    (h : path.toList = m.stem.toList ++ rest) :
    (m.relativePath path).toList = rest.dropWhile isSlash := by
  have hprefix : m.stem.toList.isPrefixOf? path.toList = some rest := by
    rw [List.isPrefixOf?_eq_some_iff_append_eq, h]
  rw [relativePath, hprefix, Option.getD_some, String.toList_ofList]
  rfl

/-- What a covered path has behind the stem starts at the border of a name. -/
theorem exists_rest_of_accepts {m : Mount ν} {path : String}
    (h : (Pattern.below m.stem).accepts path = true) :
    ∃ rest, path.toList = m.stem.toList ++ rest ∧
      (rest = [] ∨ rest.head? = some '/' ∨ m.stem.toList.getLast? = some '/') := by
  rw [Pattern.accepts] at h
  split at h
  · rename_i rest hrest
    refine ⟨rest, (List.isPrefixOf?_eq_some_iff_append_eq.1 hrest).symm, ?_⟩
    simpa [Bool.or_eq_true, or_assoc] using h
  · cases h

/-- Nothing is left of a covered path, or what is left comes right behind a separator. -/
theorem relativePath_border {m : Mount ν} {path : String}
    (h : (Pattern.below m.stem).accepts path = true) :
    (m.relativePath path).toList = [] ∨ ∃ before c, isSlash c = true ∧
      path.toList = before ++ c :: (m.relativePath path).toList := by
  obtain ⟨rest, hpath, hborder⟩ := exists_rest_of_accepts h
  rw [relativePath_eq hpath, hpath]
  have hcut := List.takeWhile_append_dropWhile (p := isSlash) (l := rest)
  rcases List.eq_nil_or_concat' (rest.takeWhile isSlash) with hnone | ⟨slashes, c, hslashes⟩
  · -- No separator was dropped, so the stem ends with one.
    rw [hnone, List.nil_append] at hcut
    rw [hcut]
    rcases hborder with rfl | hhead | hlast
    · exact .inl rfl
    · obtain ⟨tail, rfl⟩ := List.head?_eq_some_iff.1 hhead
      cases hnone
    · obtain ⟨front, hfront⟩ := List.getLast?_eq_some_iff.1 hlast
      refine .inr ⟨front, '/', rfl, ?_⟩
      rw [hfront, List.append_assoc]
      rfl
  · have hc : isSlash c = true := by
      have hmem : c ∈ rest.takeWhile isSlash := by
        rw [hslashes]
        exact List.mem_append_right _ List.mem_cons_self
      exact List.all_eq_true.1 List.all_takeWhile c hmem
    refine .inr ⟨m.stem.toList ++ slashes, c, hc, ?_⟩
    rw [hslashes, List.append_assoc] at hcut
    rw [List.append_assoc]
    exact congrArg (m.stem.toList ++ ·) hcut.symm

/-- So it does not start with a slash, and joining does not replace the root. -/
theorem relativePath_head (m : Mount ν) (path : String) :
    (m.relativePath path).toList.head? ≠ some '/' := by
  rw [relativePath, String.toList_ofList]
  generalize (m.stem.toList.isPrefixOf? path.toList).getD path.toList = rest
  have hhead := List.head?_dropWhile_not (fun c => c == '/' || c == '\\') rest
  intro hslash
  rw [hslash] at hhead
  cases hhead

/-- Names that climb are found in the whole path. -/
theorem climbs_of_relativePath {m : Mount ν} {path : String}
    (h : (Pattern.below m.stem).accepts path = true)
    (hclimbs : ['.', '.'] ∈ namesIn (m.relativePath path).toList) : isTraversal path = true := by
  have hmem : ['.', '.'] ∈ splitAll isSlash (m.relativePath path).toList := by
    refine mem_splitAll_of_imp (fun c hc => ?_) ?_ (List.mem_filter.1 hclimbs).1
    · rw [isSlash, hc]
      rfl
    · simp [isSlash]
  have hwhole : ['.', '.'] ∈ splitAll isSlash path.toList := by
    rcases relativePath_border h with hnone | ⟨before, c, hc, hpath⟩
    · rw [hnone] at hmem
      exact absurd hmem (by decide)
    · rw [hpath, splitAll_append_cons hc]
      exact List.mem_append_right _ hmem
  have hany :
      (splitAll (fun c => c == '/' || c == '\\') path.toList).any (· == ['.', '.']) = true :=
    List.any_eq_true.2 ⟨_, hwhole, rfl⟩
  rw [isTraversal, hany, Bool.or_true]

/-- **A mount looks up confined paths.** If the path of a request is covered and could not climb,
the file that it leads to is confined to the directory. -/
theorem confined_filePath {m : Mount ν} {path : String}
    (h : (Pattern.below m.stem).accepts path = true) (hsafe : isTraversal path = false) :
    Confined m.root (m.filePath path) := by
  refine confined_joinPath (m.relativePath_head path) fun hclimbs => ?_
  rw [climbs_of_relativePath h hclimbs] at hsafe
  cases hsafe

end Mount

/-! ## What a mount does -/

/-- The paths at which an operation uses the files. -/
def Operation.paths {ν : Type} : Operation ν → List String
  | .file call => [call.path]
  | .sendFile path => [path]
  | _ => []

namespace Mount

variable {ν : Type}

/-- The operation uses the files at one path only. -/
def UsesOnly (path : String) (op : Operation ν) : Prop := ∀ used ∈ op.paths, used = path

/-- A call to the files uses the path that it was given. -/
theorem usesOnly_file {call : FileCall} {path : String} (h : call.path = path) :
    UsesOnly path (.file call : Operation ν) := by
  intro used hused
  rw [List.mem_singleton.1 hused, h]

/-- Other operations use none. -/
theorem usesOnly_of_paths {op : Operation ν} {path : String} (h : op.paths = []) :
    UsesOnly path op := by
  intro used hused
  rw [h] at hused
  cases hused

open HttpServer.Action

/-- A status is sent without a file. -/
theorem only_sendStatus (path : String) (code : Nat) :
    (Action.send (.status code) : Handling ν Unit).run.Only (UsesOnly path) :=
  only_send (usesOnly_of_paths rfl)

/-- What is done with a file is done at the path that was given; this and the next four lemmas go
through the ways to do it. -/
theorem only_sendFile (path : String) :
    (sendFile path : Handling ν Unit).run.Only (UsesOnly path) := by
  refine only_ebind (only_eperform (usesOnly_file rfl)) fun found => ?_
  split
  · exact only_sendStatus path _
  · exact only_sendStatus path _
  · refine only_ebind (only_eperform (usesOnly_of_paths rfl)) fun _ => ?_
    refine only_ebind (only_eperform (usesOnly_of_paths rfl)) fun _ => ?_
    exact only_send (usesOnly_of_paths rfl)

theorem only_describeFile (path : String) :
    (describeFile path : Handling ν Unit).run.Only (UsesOnly path) := by
  refine only_ebind (only_eperform (usesOnly_file rfl)) fun found => ?_
  split
  · exact only_sendStatus path _
  · exact only_sendStatus path _
  · refine only_ebind (only_eperform (usesOnly_of_paths rfl)) fun _ => ?_
    refine only_ebind (only_eperform (usesOnly_of_paths rfl)) fun _ => ?_
    refine only_ebind (only_eperform (usesOnly_of_paths rfl)) fun _ => ?_
    exact only_send (usesOnly_of_paths rfl)

theorem only_fillFile (path : String) :
    (fillFile path : Handling ν Unit).run.Only (UsesOnly path) := by
  refine only_ebind (only_eperform (usesOnly_file rfl)) fun created => ?_
  split
  · exact only_sendStatus path _
  · exact only_ebind (only_readBody (usesOnly_of_paths rfl)) fun _ => only_sendStatus path _

theorem only_writeFile (path : String) :
    (writeFile path : Handling ν Unit).run.Only (UsesOnly path) := by
  refine only_ebind (only_eperform (usesOnly_of_paths rfl)) fun view => ?_
  dsimp only
  split
  · exact trivial
  split
  · exact only_ebind (only_send (usesOnly_of_paths rfl)) fun _ => only_fillFile path
  · exact only_fillFile path

theorem only_removeFile (path : String) :
    (removeFile path : Handling ν Unit).run.Only (UsesOnly path) := by
  refine only_ebind (only_eperform (usesOnly_file rfl)) fun removed => ?_
  split
  · exact only_sendStatus path _
  · exact only_sendStatus path _

/-- The methods are listed without a file. -/
theorem only_listMethods (m : Mount ν) (path : String) :
    m.listMethods.run.Only (UsesOnly path) := by
  refine only_ebind (only_eperform (usesOnly_of_paths rfl)) fun _ => ?_
  refine only_ebind (only_eperform (usesOnly_of_paths rfl)) fun _ => ?_
  refine only_ebind (only_eperform (usesOnly_of_paths rfl)) fun _ => ?_
  exact only_send (usesOnly_of_paths rfl)

/-- Every action of a mount uses the files at its own path. -/
theorem only_act (m : Mount ν) (method : MountMethod) (path : String) :
    (m.act method path).run.Only (UsesOnly path) := by
  cases method with
  | get => exact only_sendFile path
  | head => exact only_describeFile path
  | put | post => exact only_writeFile path
  | delete => exact only_removeFile path
  | options => exact m.only_listMethods path

/-- A mount asks whether the request is allowed, looks at it, and goes on from there. -/
theorem handler_run (m : Mount ν) (method : MountMethod) :
    (m.handler method).run =
      m.allows.bind fun allowed => .perform .look fun view => (m.proceed method allowed view).run :=
  Action.bind_assoc _ _ _

/-- The decoded path of a request stays the same whatever its handlers do. -/
theorem path_view_of_evolves {e later : Exchange ν} {header : RequestHeader}
    (h : e.Evolves later) (hrequest : e.request.map Request.header = some header) :
    later.view.path = header.path := by
  have hheader := h.header.trans hrequest
  obtain ⟨request, hlater, hsame⟩ := Option.map_eq_some_iff.1 hheader
  rw [View.path, Exchange.view]
  simp only [hlater, Option.map_some, Option.getD_some, hsame]

/-- The operations with which a mount refuses a request. -/
def Refuses (op : Operation ν) : Prop := op = .look ∨ op = .respond (.status 403)

/-- A mount refuses what its veto forbids and paths that could climb. -/
theorem proceed_of_refused (m : Mount ν) (method : MountMethod) {allowed : Bool} {view : View}
    (h : allowed = false ∨ isTraversal view.path = true) :
    m.proceed method allowed view = Action.send (.status 403) ∨
      m.proceed method allowed view = pure () := by
  unfold proceed
  by_cases hforbidden : allowed = false
  · rw [if_pos (by simp [hforbidden])]
    split
    · exact .inl rfl
    · exact .inr rfl
  · have hclimbs : isTraversal view.path = true := h.resolve_left hforbidden
    rw [if_neg (by simpa using hforbidden), if_pos hclimbs]
    exact .inl rfl

/-- What a mount does of its own in a run: nothing unless the veto has spoken. -/
theorem trace_handler (m : Mount ν) (method : MountMethod) (e : Exchange ν) :
    (m.handler method).run.trace e = m.allows.trace e ++
      match Serving.exec m.allows.run e with
      | (some (some allowed), later) =>
        .look :: (m.proceed method allowed later.view).run.trace later
      | _ => [] := by
  rw [handler_run, trace_bind]
  rcases Serving.exec m.allows.run e with ⟨_ | _ | allowed, later⟩
  · rfl
  · rfl
  · rfl

/-- The run of a mount once the veto has spoken. -/
theorem exec_handler {m : Mount ν} {method : MountMethod} {e later : Exchange ν} {allowed : Bool}
    (h : Serving.exec m.allows.run e = (some (some allowed), later)) :
    Serving.exec (m.handler method).run.run e =
      Serving.exec (m.proceed method allowed later.view).run.run later := by
  rw [handler_run, exec_run_bind, h]
  dsimp only
  rw [exec_run_perform]
  rfl

/-- **Refusing is harmless.** A mount that refuses a request leaves the files alone, and it sends
nothing but a 403, of which the header may be out already. It sends nothing on a connection that has
ended. -/
theorem sends_of_refused (m : Mount ν) (method : MountMethod) {allowed : Bool} {e : Exchange ν}
    (h : allowed = false ∨ isTraversal e.view.path = true) :
    (∀ op ∈ (m.proceed method allowed e.view).run.trace e, Refuses op) ∧
      (Serving.exec (m.proceed method allowed e.view).run.run e).2.files = e.files ∧
      ∃ (sent : Bytes) (header : ResponseHeader),
        (Serving.exec (m.proceed method allowed e.view).run.run e).2.outgoing.written =
          e.outgoing.written ++ sent ∧
        header.code = 403 ∧ header.message = "Forbidden" ∧
        sent <+: (if e.response.headerSent then [] else header.toBytes) ++
          Utf8.ofString "Forbidden" ∧
        (e.isStopped = true → sent = []) := by
  obtain ⟨header, hcode, hmessage, sent, hwritten, hprefix, _, hstopped⟩ :=
    Serving.puts_sendStatus (show 403 ≠ 204 by decide) (by decide) e
  rcases m.proceed_of_refused method h with hsend | hnothing
  · rw [hsend, exec_run_send]
    refine ⟨?_, (Serving.moves_sendStatus 403 e).files, sent, header, hwritten, hcode, hmessage,
      hprefix, hstopped⟩
    exact (only_send (.inr rfl)).trace e
  · rw [hnothing]
    refine ⟨fun op hop => absurd hop List.not_mem_nil, rfl, [], header, ?_, hcode, hmessage,
      List.nil_prefix, fun _ => rfl⟩
    exact (List.append_nil _).symm

/-- **Mounts are confined.** Behind what its veto does, a mount uses the files only at paths
confined to its directory, whatever the target of the request is and whatever the veto does to the
exchange. If the decoded path could climb, or if the veto forbids the request, the mount does not
use the files at all, and it sends nothing but a 403. -/
theorem handler_confined (m : Mount ν) (method : MountMethod) (e : Exchange ν)
    {received : HeaderSection}
    (hrequest : e.request.map Request.header = some (.ofSection received))
    (hmatch : (Pattern.below m.stem).accepts (RequestHeader.ofSection received).path = true) :
    ∃ own, (m.handler method).run.trace e = m.allows.trace e ++ own ∧
      (∀ op ∈ own, ∀ path ∈ op.paths, Confined m.root path) ∧
      (isTraversal (RequestHeader.ofSection received).path = true →
        ∀ op ∈ own, op = .look ∨ op = .respond (.status 403)) ∧
      ∀ allowed later, Serving.exec m.allows.run e = (some (some allowed), later) →
        (allowed = false ∨ isTraversal (RequestHeader.ofSection received).path = true) →
        (∀ op ∈ own, op = .look ∨ op = .respond (.status 403)) ∧
        (Serving.exec (m.handler method).run.run e).2.files = later.files ∧
        ∃ (sent : Bytes) (header : ResponseHeader),
          (Serving.exec (m.handler method).run.run e).2.outgoing.written =
            later.outgoing.written ++ sent ∧
          header.code = 403 ∧ header.message = "Forbidden" ∧
          sent <+: (if later.response.headerSent then [] else header.toBytes) ++
            Utf8.ofString "Forbidden" ∧
          (later.isStopped = true → sent = []) := by
  rw [trace_handler]
  rcases hveto : Serving.exec m.allows.run e with ⟨_ | _ | allowed, later⟩
  · refine ⟨[], rfl, fun _ hop => absurd hop List.not_mem_nil,
      fun _ _ hop => absurd hop List.not_mem_nil, fun _ _ hsame => ?_⟩
    cases hsame
  · refine ⟨[], rfl, fun _ hop => absurd hop List.not_mem_nil,
      fun _ _ hop => absurd hop List.not_mem_nil, fun _ _ hsame => ?_⟩
    cases hsame
  have hpath : later.view.path = (RequestHeader.ofSection received).path := by
    have hevolves := m.allows.evolves_run e
    rw [hveto] at hevolves
    exact path_view_of_evolves hevolves hrequest
  have hharmless : allowed = false ∨ isTraversal later.view.path = true →
      ∀ op ∈ .look :: (m.proceed method allowed later.view).run.trace later,
        op = .look ∨ op = .respond (.status 403) := by
    intro hrefused op hop
    rcases List.mem_cons.1 hop with rfl | hop
    · exact .inl rfl
    · exact (m.sends_of_refused method hrefused).1 op hop
  refine ⟨_, rfl, ?_, ?_, ?_⟩
  · intro op hop path hused
    by_cases hrefused : allowed = false ∨ isTraversal later.view.path = true
    · rcases hharmless hrefused op hop with rfl | rfl
      · cases hused
      · cases hused
    · rcases List.mem_cons.1 hop with rfl | hop
      · cases hused
      obtain ⟨hallowed, hsafe⟩ := not_or.1 hrefused
      have hact : m.proceed method allowed later.view =
          m.act method (m.filePath later.view.path) := by
        rw [proceed, if_neg (by simpa using hallowed), if_neg hsafe]
      rw [hact] at hop
      rw [(m.only_act method _).trace later op hop path hused, hpath]
      rw [hpath] at hsafe
      exact confined_filePath hmatch (by simpa using hsafe)
  · intro hclimbs
    rw [← hpath] at hclimbs
    exact hharmless (.inr hclimbs)
  · rintro allowed' later' hsame hrefused
    cases hsame
    rw [← hpath] at hrefused
    rw [exec_handler hveto]
    exact ⟨hharmless hrefused, (m.sends_of_refused method hrefused).2⟩

/-- A directory that everyone may read. -/
def documents : Mount Unit := { root := "/srv/documents", stem := "/files" }

/-- The received header of a request for a file beside the directory. -/
def climbingRequest : HeaderSection := { method := "GET", target := "/files/..%2Fsecret" }

/-- The exchange of this request. -/
def climbingExchange : Exchange Unit :=
  { Exchange.accept { sessions := { mint := fun _ => "" } } {} none {} {} [] with
    request := some { header := .ofSection climbingRequest } }

theorem refused_climbingExchange :
    (Pattern.below documents.stem).accepts (RequestHeader.ofSection climbingRequest).path = true ∧
      ∃ own, (documents.handler .get).run.trace climbingExchange = own ∧
        ∀ op ∈ own, op = .look ∨ op = .respond (.status 403) := by
  have hmatch : (Pattern.below documents.stem).accepts
      (RequestHeader.ofSection climbingRequest).path = true := by decide +kernel
  have hclimbs : isTraversal (RequestHeader.ofSection climbingRequest).path = true := by
    decide +kernel
  obtain ⟨own, htrace, _, hrefused, _⟩ :=
    handler_confined documents .get climbingExchange rfl hmatch
  exact ⟨hmatch, own, htrace, hrefused hclimbs⟩

end Mount

end HttpServer
