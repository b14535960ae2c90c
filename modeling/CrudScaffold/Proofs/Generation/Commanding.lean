import CrudScaffold.Proofs.Backend.Turns
import CrudScaffold.Proofs.Generation.Failing

/-!
# CrudScaffold.Proofs.Generation.Commanding — the commands of a run

A delivery of the artisan backend runs one command for each artifact, in their order, up to the turn that fails
(`commands_of_delivery`).  `generate_commands` says what this means for a run: which commands are run, when, and how a
run ends whose commands are hindered or go wrong.
-/

namespace CrudScaffold.Generation

open CrudScaffold.Backend CrudScaffold.Calendar CrudScaffold.Files CrudScaffold.Text

variable {l : Layout}

/-! ### Turns -/

/-- The calls of the commands for some artifacts. -/
def callsOf (l : Layout) (as : List Artifact) : List Call := as.map fun a => makeCall l a.kind a.target

/-- The turn of the artifact at the place `i`, in a delivery that makes `n` calls and ends with `ending`: a hindrance
ends the delivery before the call, a mishap ends it after the call. -/
structure TurnOf (l : Layout) (b : Bench) (a : Artifact) (i n : Nat) (ending : Option Fault) : Prop where
  hindered : ∀ f, Hindered l b a.kind a.target f → ending = some f ∧ n = i
  cleared : Cleared l b a.kind a.target → i < n
  mishap : ∀ f, Cleared l b a.kind a.target → Mishap l b a.kind a.target f → ending = some f ∧ n = i + 1

/-- The commands of a delivery that makes `n` calls: one for each artifact that got through and for at most one more, in
their order.  The turn of an artifact comes when those before it have got through, after their calls. -/
structure Commands (l : Layout) (s : Scene Bench) (as : List Artifact) (files : List (Path × Int))
    (ending : Option Fault) (s' : Scene Bench) (n : Nat) : Prop where
  low : files.length ≤ n
  high : n ≤ files.length + 1
  within : n ≤ as.length
  calls : s'.surroundings.calls = s.surroundings.calls ++ callsOf l (as.take n)
  turns : ∀ front a back, as = front ++ a :: back → front.length ≤ files.length → ∃ mid,
    Delivery (Backend.ofKind l .artisan) s front (files.take front.length) none mid ∧
    mid.surroundings.calls = s.surroundings.calls ++ callsOf l front ∧
    TurnOf l mid.surroundings a front.length n ending

theorem TurnOf.succ {b : Bench} {a : Artifact} {i n : Nat} {ending : Option Fault} (h : TurnOf l b a i n ending) :
    TurnOf l b a (i + 1) (n + 1) ending where
  hindered f hf := by
    obtain ⟨hending, rfl⟩ := h.hindered f hf
    exact ⟨hending, rfl⟩
  cleared hc := Nat.succ_lt_succ (h.cleared hc)
  mishap f hc hf := by
    obtain ⟨hending, rfl⟩ := h.mishap f hc hf
    exact ⟨hending, rfl⟩

theorem turnOf_of_hindered {b : Bench} {a : Artifact} {f : Fault} (h : Hindered l b a.kind a.target f) :
    TurnOf l b a 0 0 (some f) where
  hindered _ he := ⟨congrArg some (h.unique he), rfl⟩
  cleared hc := absurd hc h.not_cleared
  mishap _ hc _ := absurd hc h.not_cleared

theorem turnOf_of_cleared {b : Bench} {a : Artifact} {n : Nat} {ending : Option Fault}
    (h : Cleared l b a.kind a.target) (hn : 0 < n)
    (hmishap : ∀ f, Mishap l b a.kind a.target f → ending = some f ∧ n = 1) : TurnOf l b a 0 n ending where
  hindered _ hf := absurd h hf.not_cleared
  cleared _ := hn
  mishap f _ hf := hmishap f hf

theorem turnOf_of_created {s s' : Scene Bench} {a : Artifact} {p : Path}
    (hcreate : (Backend.createByCommand l a.kind a.target).run.run s = (.ok p, s')) {n : Nat} (hn : 0 < n)
    (ending : Option Fault) : TurnOf l s.surroundings a 0 n ending := by
  obtain ⟨hcleared, -⟩ := createByCommand_ok hcreate
  refine turnOf_of_cleared hcleared hn fun f hf => ?_
  obtain ⟨r, hrun, hr⟩ := run_createByCommand_of_cleared hcleared
  rw [hrun, (hr f).2 hf] at hcreate
  cases hcreate

theorem turnOf_of_notCreated {s s' : Scene Bench} {a : Artifact} {f : Fault}
    (hcreate : (Backend.createByCommand l a.kind a.target).run.run s = (.error f, s')) : ∃ n, n ≤ 1 ∧
      s'.surroundings.calls = s.surroundings.calls ++ callsOf l ([a].take n) ∧
      TurnOf l s.surroundings a 0 n (some f) := by
  rcases cleared_or_hindered l s.surroundings a.kind a.target with hcleared | ⟨e, hhindered⟩
  · obtain ⟨r, hrun, hr⟩ := run_createByCommand_of_cleared hcleared
    obtain ⟨rfl, rfl⟩ := Prod.mk.inj (hrun.symm.trans hcreate)
    refine ⟨1, Nat.le_refl 1, rfl, turnOf_of_cleared hcleared Nat.zero_lt_one fun e he => ?_⟩
    obtain rfl := Except.error.inj ((hr e).2 he)
    exact ⟨rfl, rfl⟩
  · have hrun := run_createByCommand_of_hindered hhindered
    obtain ⟨he, rfl⟩ := Prod.mk.inj (hrun.symm.trans hcreate)
    obtain rfl := Except.error.inj he
    exact ⟨0, Nat.zero_le 1, (List.append_nil _).symm, turnOf_of_hindered hhindered⟩

theorem calls_of_written {s s' s'' : Scene Bench} {a : Artifact} {p : Path} {r : Except Fault Int}
    (hcreate : (Backend.createByCommand l a.kind a.target).run.run s = (.ok p, s'))
    (hwrite : (Backend.writeFile l p a.content).run.run s' = (r, s'')) :
    s''.surroundings.calls = s.surroundings.calls ++ callsOf l [a] := by
  have hcalls := congrArg Bench.calls (surroundings_writeFile l p a.content s')
  rw [hwrite] at hcalls
  rw [hcalls, (createByCommand_ok hcreate).2]
  rfl

/-! ### Deliveries -/

/-- A delivery that ends with its first artifact has one turn. -/
theorem commands_of_first {s s' : Scene Bench} {a : Artifact} {f : Fault} {n : Nat} (hn : n ≤ 1)
    (hcalls : s'.surroundings.calls = s.surroundings.calls ++ callsOf l ([a].take n))
    (hturn : TurnOf l s.surroundings a 0 n (some f)) (rest : List Artifact) :
    Commands l s (a :: rest) [] (some f) s' n where
  low := Nat.zero_le n
  high := hn
  within := by
    rw [List.length_cons]
    omega
  calls := by
    rw [hcalls]
    rcases Nat.le_one_iff_eq_zero_or_eq_one.1 hn with rfl | rfl <;> rfl
  turns front d back hsplit hfront := by
    obtain rfl := List.length_eq_zero_iff.1 (Nat.le_zero.1 hfront)
    obtain ⟨rfl, rfl⟩ := List.cons_eq_cons.1 hsplit
    exact ⟨s, .finished s, (List.append_nil _).symm, hturn⟩

/-- An artifact that gets through comes before the commands of the others. -/
theorem Commands.stored {s s₁ s₂ s' : Scene Bench} {a : Artifact} {rest : List Artifact} {p : Path} {size : Int}
    {files : List (Path × Int)} {ending : Option Fault} {n : Nat} (h : Commands l s₂ rest files ending s' n)
    (hcreate : (Backend.createByCommand l a.kind a.target).run.run s = (.ok p, s₁))
    (hwrite : (Backend.writeFile l p a.content).run.run s₁ = (.ok size, s₂)) :
    Commands l s (a :: rest) ((p, size) :: files) ending s' (n + 1) where
  low := Nat.succ_le_succ h.low
  high := Nat.succ_le_succ h.high
  within := Nat.succ_le_succ h.within
  calls := by
    rw [h.calls, calls_of_written hcreate hwrite, List.append_assoc]
    rfl
  turns front d back hsplit hfront := by
    -- the turn of the first artifact is its command; the others have theirs after it
    cases front with
    | nil =>
      obtain ⟨rfl, rfl⟩ := List.cons_eq_cons.1 hsplit
      exact ⟨s, .finished s, (List.append_nil _).symm, turnOf_of_created hcreate n.succ_pos ending⟩
    | cons e front =>
      obtain ⟨rfl, hrest⟩ := List.cons_eq_cons.1 hsplit
      obtain ⟨mid, hdone, hmid, hturn⟩ := h.turns front d back hrest (Nat.le_of_succ_le_succ hfront)
      refine ⟨mid, .stored hcreate hwrite hdone, ?_, hturn.succ⟩
      rw [hmid, calls_of_written hcreate hwrite, List.append_assoc]
      rfl

/-- Every delivery has its commands. -/
theorem commands_of_delivery {s s' : Scene Bench} {as : List Artifact} {files : List (Path × Int)}
    {ending : Option Fault} (h : Delivery (Backend.ofKind l .artisan) s as files ending s') :
    ∃ n, Commands l s as files ending s' n := by
  induction h with
  | finished s =>
    refine ⟨0, Nat.le_refl 0, Nat.zero_le 1, Nat.le_refl 0, (List.append_nil _).symm, fun front a back hsplit => ?_⟩
    cases front <;> cases hsplit
  | notCreated hcreate =>
    obtain ⟨n, hn, hcalls, hturn⟩ := turnOf_of_notCreated hcreate
    exact ⟨n, commands_of_first hn hcalls hturn _⟩
  | notWritten hcreate hwrite =>
    have hturn := turnOf_of_created hcreate Nat.zero_lt_one
    exact ⟨1, commands_of_first (Nat.le_refl 1) (calls_of_written hcreate hwrite) (hturn _) _⟩
  | stored hcreate hwrite hrest ih =>
    obtain ⟨n, hn⟩ := ih
    exact ⟨n + 1, hn.stored hcreate hwrite⟩

/-! ### Runs -/

/-- How a run ends whose delivery ends so: a failure of the backend is in the report, any other fault is let through. -/
def Ends (res : Except Fault Report) : Option Fault → Prop
  | none => ∃ report, res = .ok report ∧ report.failure = none
  | some (.failure (.backend e)) => ∃ report, res = .ok report ∧ report.failure = some (.backend e)
  | some fault => res = .error fault

theorem ends_writing {σ : Type} (b : Backend σ) (started : Moment) (r : Request) (slice : Slice)
    (records : List FileRecord) (ending : Option Fault) :
    Ends ((writingOf records ending).map (reportOf b started r slice)) ending := by
  rcases ending with _ | (f | c)
  · exact ⟨_, rfl, rfl⟩
  · cases f with
    | backend e => exact ⟨_, rfl, rfl⟩
    | _ => rfl
  · rfl

/-- **The commands of a run.**  A run whose build succeeds delivers the artifacts of its slice.  It runs the command of
an artifact at most once, in their order, and only when all those before have been created and written.  A turn that is
hindered comes to no command; a hindrance or a mishap ends the run, with the fault that belongs to it, and no further
command is run. -/
theorem generate_commands (g : Generator) (l : Layout) (v : Template.View) (started : Moment) {r : Request}
    {slice : Slice} (hbuild : g.outcome v r = .ok slice) (s : Session Bench) :
    ∃ res s' before files ending after n,
      (g.generate (Backend.ofKind l .artisan) v started r).run.run s = (res, s') ∧
      before.surroundings = s.surroundings ∧ after.surroundings = s'.surroundings ∧
      Delivery (Backend.ofKind l .artisan) before slice.artifacts files ending after ∧ Ends res ending ∧
      Commands l before slice.artifacts files ending after n := by
  obtain ⟨history, added, -, hrun⟩ := run_generate_of_delivery hbuild
  obtain ⟨files, ending, after, hdelivery⟩ := exists_delivery (Backend.ofKind l .artisan) slice.artifacts
    ⟨s.surroundings, s.journal ++ added⟩
  obtain ⟨n, hcommands⟩ := commands_of_delivery hdelivery
  exact ⟨_, _, _, files, ending, after, n, hrun started hdelivery, rfl, rfl, hdelivery,
    ends_writing _ started r slice _ ending, hcommands⟩

/-- A project with a script that makes nothing but the directory of the models. -/
def scriptOnly : Tree := Tree.empty.put ["artisan"] (.file ByteArray.empty)

/-- A session in that project. -/
def scriptSession : Session Bench :=
  ⟨[.idle], { (sessionOn scriptOnly).surroundings with
    runner := fun _ _ t => (.finished 0 "" "", t.put ["models"] .directory) }, []⟩

/-- The small generator accepts posts, and the model is the first of their artifacts. -/
theorem outcome_post : ∃ slice a rest,
    letterGenerator.outcome ⟨.empty, []⟩ ⟨"Post", "title:string", none⟩ = .ok slice ∧ slice.artifacts = a :: rest ∧
    a.kind = .model ∧ a.target = "Post" := by
  have hfirst : (letterGenerator.outcome ⟨.empty, []⟩ ⟨"Post", "title:string", none⟩).map (fun slice =>
      slice.artifacts.head?.map fun a => (a.kind, a.target)) = .ok (some (.model, "Post")) := by decide +kernel
  cases hbuild : letterGenerator.outcome ⟨.empty, []⟩ ⟨"Post", "title:string", none⟩ with
  | error e =>
    rw [hbuild] at hfirst
    cases hfirst
  | ok slice =>
    rw [hbuild] at hfirst
    obtain ⟨a, hhead, hplace⟩ := Option.map_eq_some_iff.1 (Except.ok.inj hfirst)
    obtain ⟨rest, hsplit⟩ := List.head?_eq_some_iff.1 hhead
    obtain ⟨hkind, htarget⟩ := Prod.mk.inj hplace
    exact ⟨slice, a, rest, rfl, hsplit, hkind, htarget⟩

/-- A run in that project. -/
theorem generate_commands_scriptOnly : ∃ slice,
    letterGenerator.outcome ⟨.empty, []⟩ ⟨"Post", "title:string", none⟩ = .ok slice ∧
    ∃ res s' before files ending after n,
      (letterGenerator.generate (Backend.ofKind topLayout .artisan) ⟨.empty, []⟩ ⟨2024, 1, 1, 0⟩
        ⟨"Post", "title:string", none⟩).run.run scriptSession = (res, s') ∧
      before.surroundings = scriptSession.surroundings ∧ after.surroundings = s'.surroundings ∧
      Delivery (Backend.ofKind topLayout .artisan) before slice.artifacts files ending after ∧ Ends res ending ∧
      Commands topLayout before slice.artifacts files ending after n := by
  obtain ⟨slice, -, -, hbuild, -⟩ := outcome_post
  exact ⟨slice, hbuild, generate_commands letterGenerator topLayout ⟨.empty, []⟩ ⟨2024, 1, 1, 0⟩ hbuild scriptSession⟩

/-! ### A command that makes no file -/

/-- The layout of a project whose models are to go to a directory that may be missing, into one whose name is too
long. -/
def deepLayout : Layout :=
  ⟨{ Settings.default with modelsPath := "/".intercalate ["models", longName] }, ⟨.top, []⟩⟩

/-- The path of the model of posts in that layout. -/
def deepPath : Path := ⟨.top, ["models", longName, "Post.php"]⟩

theorem classPath_deepLayout : deepLayout.classPath .model "Post" = .ok deepPath := by
  have hnames : Path.namesOf ("/".intercalate ["models", longName]) = ["models", longName] :=
    Path.namesOf_intercalate nofun fun n hn => by
      rcases List.mem_pair.1 hn with rfl | rfl
      · exact ⟨by decide, by decide, by decide, by decide⟩
      · exact isName_longName
  have hdirectory : deepLayout.directory .model = ⟨.top, ["models", longName]⟩ := by
    show Path.child ⟨.top, []⟩ ("/".intercalate ["models", longName]) = _
    rw [Path.child_of_relative _ (by rw [String.toList_intercalate]; decide), hnames]
    rfl
  have hsegments : (Naming.segments "Post".toList).map String.ofList = ["Post"] := by decide
  have hfile : Path.ofString ("Post" ++ ".php") = ⟨.here, ["Post.php"]⟩ := by decide
  simp only [Layout.classPath, hsegments, hdirectory, List.getLast?_singleton, List.dropLast_singleton,
    List.foldl_nil, Path.child, hfile]
  rfl

theorem hasNul_deepPath : deepPath.hasNul = false := by
  simp only [Path.hasNul, deepPath, List.any_cons, hasNul_longName, Bool.false_or]
  decide

theorem cleared_scriptSession : Cleared deepLayout scriptSession.surroundings .model "Post" where
  vacant _ := by
    have hfind : scriptOnly.find [] deepPath = .error .noSuchFile := by decide +kernel
    refine ⟨deepPath, false, classPath_deepLayout, ?_, nofun⟩
    show pathExists scriptOnly [] deepPath = _
    rw [pathExists, look, hasNul_deepPath, hfind]
    rfl
  script := by decide

theorem mishap_scriptSession : Mishap deepLayout scriptSession.surroundings .model "Post"
    (.crash (.access (refuse .nameTooLong deepPath))) := by
  have hfind : (scriptOnly.put ["models"] .directory).find [] deepPath = .error .nameTooLong := by decide +kernel
  refine .unfound rfl (.unseen nofun classPath_deepLayout ?_)
  show isFile (scriptOnly.put ["models"] .directory) [] deepPath = _
  rw [isFile, look, hasNul_deepPath, hfind]
  rfl

theorem fails_of_mishap {s : Scene Bench} {a : Artifact} {f : Fault}
    (hcleared : Cleared l s.surroundings a.kind a.target)
    (hmishap : Mishap l s.surroundings a.kind a.target f) : ∃ s', Fails (Backend.ofKind l .artisan) s a f s' := by
  obtain ⟨r, hcreate, hr⟩ := run_createByCommand_of_cleared hcleared
  rw [(hr f).2 hmishap] at hcreate
  exact ⟨_, .creating hcreate⟩

/-- Not every command that makes no file ends with a failure in the report: a path that is too long is refused when one
looks for the file, and this fault is let through. -/
theorem not_generate_reports_missing : ¬∀ (g : Generator) (l : Layout) (v : Template.View) (started : Moment)
    (r : Request) (slice : Slice) (s : Session Bench) (a : Artifact) (rest : List Artifact) (p : Path)
    (output errors : String) (t : Tree), g.outcome v r = .ok slice → slice.artifacts = a :: rest →
      a.kind ≠ .migration → l.classPath a.kind a.target = .ok p → Cleared l s.surroundings a.kind a.target →
      commandIn l s.surroundings a.kind a.target = (.finished 0 output errors, t) →
      (∀ content, t.node? (p.locationFrom s.surroundings.cwd) ≠ some (.file content)) → ∃ report s' f,
        (g.generate (Backend.ofKind l .artisan) v started r).run.run s = (.ok report, s') ∧
        report.failure = some f := by
  intro h
  obtain ⟨slice, ⟨kind, template, target, content⟩, rest, hbuild, hsplit, rfl, rfl⟩ := outcome_post
  -- the directory is made, and nothing stands at the path
  have hnode : (scriptOnly.put ["models"] .directory).node? (deepPath.locationFrom []) = none := by decide +kernel
  have hnofile : ∀ content, (scriptOnly.put ["models"] .directory).node? (deepPath.locationFrom []) ≠
      some (.file content) := by
    rw [hnode]
    exact nofun
  obtain ⟨report, s', f, hreport, -⟩ := h letterGenerator deepLayout ⟨.empty, []⟩ ⟨2024, 1, 1, 0⟩
    ⟨"Post", "title:string", none⟩ slice scriptSession _ rest deepPath "" "" _ hbuild hsplit nofun
    classPath_deepLayout cleared_scriptSession rfl hnofile
  -- yet the run stops without a report: the name of the file is too long to be looked for
  obtain ⟨history, added, -, hgenerate⟩ := run_generate_of_delivery hbuild
  obtain ⟨scene, hfails⟩ := fails_of_mishap (s := ⟨scriptSession.surroundings, scriptSession.journal ++ added⟩)
    (a := ⟨.model, template, "Post", content⟩) cleared_scriptSession mishap_scriptSession
  have hdelivery := delivery_some_iff.2 ⟨[], _, rest, _, hsplit, .finished _, hfails⟩
  exact absurd (congrArg Prod.fst (hreport.symm.trans (hgenerate ⟨2024, 1, 1, 0⟩ hdelivery))) nofun

end CrudScaffold.Generation
