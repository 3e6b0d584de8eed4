import PackageBuilder.Web.Page

/-! The badges of a page: each one tells the last verdict on its stage since its node was
announced. -/
namespace PackageBuilder
open Text

/-- What a message has `handleEvent` called with. -/
def Notice.verdict (x : Notice) : Option (Badge × PageStage) :=
  match x.status with
  | .buildNotRequired => some (.skipped, .build)
  | .complete => some (if x.result = some 0 then .ok else .error, .postprocessing)
  | .postProcessing => if x.retcode ≠ some 0 then some (.error, .postprocessing) else none
  | .postProcessingComplete =>
    some (if x.retcode ≠ some 0 then .error else .ok, .postprocessing)
  | .buildFailed => some (.error, .build)
  | .buildComplete => some (Page.statusOf x, .build)
  | .buildbinComplete => some (Page.statusOf x, .buildbin)
  | .checkCmd => some (.inProgress, .check)
  | .checkComplete => some (Page.statusOf x, .check)
  | .startingBuildbin => some (.inProgress, .buildbin)
  | .skipBuildbin => some (.skipped, .buildbin)
  | _ => none

/-- What a verdict on one stage tells of a stage. -/
def implied (v : Badge × PageStage) (stage : PageStage) : Option Badge :=
  if v.2 = stage then some v.1
  else if v.1 = .error ∧ stage ∈ Page.skippedAfter v.2 then some .skipped
  else none

/-- What a message tells of one stage of one node. -/
def Notice.tells (x : Notice) (node : NodeName) (stage : PageStage) : Option Badge :=
  if x.node = node then x.verdict.bind (implied · stage) else none

/-- The last verdict of the messages. -/
def lastVerdict (node : NodeName) (stage : PageStage) (xs : List Notice) : Badge :=
  (xs.filterMap (·.tells node stage)).getLast?.getD .inProgress

def Notice.announces (x : Notice) (node : NodeName) : Bool := x.status = .nodeInfo ∧ x.node = node

/-- For each time the node was announced, the messages that followed. -/
def announced (node : NodeName) : List Notice → List (List Notice)
  | [] => []
  | x :: xs => if x.announces node then xs :: announced node xs else announced node xs

/-- A node's row has one badge of each stage, and its summary one more of the build. -/
def copies : PageStage → Nat
  | .build => 2
  | .check | .buildbin | .postprocessing => 1

def Page.classes (p : Page) : List (List Str) := p.document.map Element.classes

/-- What each badge of a stage tells, as the classes that tell it. -/
def Page.badges (p : Page) (node : NodeName) (stage : PageStage) : List (List Str) :=
  (p.classes.filter (selector node stage ∈ ·)).map (·.filter (· ∈ badgeClasses))

/-- No element is a badge of two stages. -/
def Page.Tagged (p : Page) : Prop :=
  ∀ cs ∈ p.classes, ∀ a s b t, selector a s ∈ cs → selector b t ∈ cs → a = b ∧ s = t

variable {p q : Page} {a b : NodeName} {s t : PageStage} {x : Notice} {xs : List Notice}
  {event : Badge} {id : Str} {v : Option Str}

theorem NodeName.no_underscore (a : NodeName) : '_' ∉ a.text := by
  intro h
  rcases a.plain '_' h with hc | hc
  · exact absurd hc (by decide)
  · exact absurd hc (by decide)

theorem nodeId_injective {name name' : Str} (h : nodeId a name = nodeId b name') :
    a = b ∧ name = name' := by
  have hhead : ∀ (c : NodeName) (n : Str), (nodeId c n).takeWhile (· ≠ '_') = c.text := by
    intro c n
    have hpos : ∀ x ∈ c.text, decide (x ≠ '_') = true := by
      intro x hx
      rw [decide_eq_true_iff]
      rintro rfl
      exact c.no_underscore hx
    rw [nodeId, List.takeWhile_append_of_pos hpos]
    simp
  have htext : a.text = b.text := by rw [← hhead a name, h, hhead]
  rw [nodeId, nodeId, htext] at h
  refine ⟨?_, (List.cons.inj (List.append_cancel_left h)).2⟩
  cases a
  cases b
  simpa using htext

theorem selector_injective (h : selector a s = selector b t) : a = b ∧ s = t := by
  obtain ⟨ha, hs⟩ := nodeId_injective h
  refine ⟨ha, ?_⟩
  revert hs
  cases s <;> cases t <;> decide

theorem selector_not_badge : selector a s ∉ badgeClasses := by
  intro h
  have hsuffix : ("EVENT" : Str) <:+ selector a s := by
    have hm : ("EVENT" : Str) <:+ s.mark := by cases s <;> decide
    exact hm.trans (List.suffix_append_of_suffix (List.suffix_cons _ _))
  have hno : ∀ c ∈ badgeClasses, ¬ ("EVENT" : Str) <:+ c := by decide
  exact hno _ h hsuffix

theorem className_mem : event.className ∈ badgeClasses := by cases event <;> decide

theorem classes_byId {f : Element → Element} {d : Document} (hf : ∀ e, (f e).classes = e.classes) :
    (byId id f d).map Element.classes = d.map Element.classes := by
  induction d with
  | nil => rfl
  | cons e d ih =>
    rw [byId]
    split
    · rw [List.map_cons, List.map_cons, hf]
    · rw [List.map_cons, List.map_cons, ih]

@[simp] theorem classes_html : (p.html id v).classes = p.classes := classes_byId fun _ => rfl

@[simp] theorem classes_append : (p.append id v).classes = p.classes := classes_byId fun _ => rfl

/-- What `setBadge` does to the classes of an element. -/
def badged (event : Badge) (c : Str) (cs : List Str) : List Str :=
  if c ∈ cs then cs.filter (· ∉ badgeClasses) ++ [event.className] else cs

theorem classes_setBadge :
    (p.setBadge event a s).classes = p.classes.map (badged event (selector a s)) := by
  simp only [Page.classes, Page.setBadge, byClass, List.map_map]
  refine List.map_congr_left fun e _ => ?_
  by_cases hm : selector a s ∈ e.classes
  · have hkept : selector a s ∈ e.classes.filter (· ∉ badgeClasses) :=
      List.mem_filter.mpr ⟨hm, by simpa using selector_not_badge⟩
    have hnew : event.className ∉ e.classes.filter (· ∉ badgeClasses) := by
      intro h
      simpa [className_mem] using (List.mem_filter.mp h).2
    simp only [Function.comp_apply, if_pos hm, Element.removeClass, if_pos hkept, Element.addClass,
      if_neg hnew, badged]
    rw [if_pos (List.mem_append_left _ hkept)]
    rfl
  · simp only [Function.comp_apply, if_neg hm, badged]

theorem selector_mem_badged {c : Str} {cs : List Str} :
    selector a s ∈ badged event c cs ↔ selector a s ∈ cs := by
  rw [badged]
  split
  · have hne : selector a s ≠ event.className := by
      intro h
      exact selector_not_badge (h ▸ className_mem)
    simp [hne, selector_not_badge]
  · rfl

theorem Page.Tagged.setBadge (h : p.Tagged) (event : Badge) (a : NodeName) (s : PageStage) :
    (p.setBadge event a s).Tagged := by
  intro cs hcs b t c u hb hc
  rw [classes_setBadge] at hcs
  obtain ⟨cs', hcs', rfl⟩ := List.mem_map.mp hcs
  exact h cs' hcs' b t c u (selector_mem_badged.mp hb) (selector_mem_badged.mp hc)

/-- What a verdict makes of badges, and what no verdict does. -/
def repaint (event : Option Badge) (badges : List (List Str)) : List (List Str) :=
  event.elim badges fun e => badges.map fun _ => [e.className]

theorem badges_setBadge (h : p.Tagged) (event : Badge) (b : NodeName) (t : PageStage) :
    (p.setBadge event b t).badges a s =
      repaint (if b = a ∧ t = s then some event else none) (p.badges a s) := by
  have hfilter : ∀ cs, decide (selector a s ∈ badged event (selector b t) cs) =
      decide (selector a s ∈ cs) := fun cs => decide_eq_decide.mpr selector_mem_badged
  rw [Page.badges, classes_setBadge, List.filter_map, List.map_map, Page.badges]
  simp only [Function.comp_def, hfilter]
  split
  next he =>
    obtain ⟨rfl, rfl⟩ := he
    rw [repaint, Option.elim_some, List.map_map]
    refine List.map_congr_left fun cs hcs => ?_
    have hm : selector b t ∈ cs := by simpa using (List.mem_filter.mp hcs).2
    have hnone : (cs.filter (· ∉ badgeClasses)).filter (· ∈ badgeClasses) = [] := by
      rw [List.filter_filter, List.filter_eq_nil_iff]
      simp
    rw [badged, if_pos hm, List.filter_append, hnone]
    simp [className_mem]
  next he =>
    rw [repaint, Option.elim_none]
    refine List.map_congr_left fun cs hcs => ?_
    obtain ⟨hc, hm⟩ := List.mem_filter.mp hcs
    have hno : selector b t ∉ cs := by
      intro hb
      exact he (h cs hc b t a s hb (by simpa using hm))
    rw [badged, if_neg hno]

theorem skip_all (h : p.Tagged) (ss : List PageStage) :
    (ss.foldl (fun p t => p.setBadge .skipped b t) p).Tagged ∧
      (ss.foldl (fun p t => p.setBadge .skipped b t) p).badges a s =
        repaint (if b = a ∧ s ∈ ss then some .skipped else none) (p.badges a s) := by
  induction ss generalizing p with
  | nil => exact ⟨h, by simp [repaint]⟩
  | cons t ss ih =>
    obtain ⟨ht, hs⟩ := ih (h.setBadge .skipped b t)
    refine ⟨ht, ?_⟩
    rw [List.foldl_cons, hs, badges_setBadge h .skipped b t]
    simp only [List.mem_cons, eq_comm (a := s) (b := t)]
    by_cases hb : b = a <;> by_cases he : t = s <;> by_cases hm : s ∈ ss <;>
      simp [repaint, hb, he, hm]

/-- The badges of a node after a verdict on a node. -/
theorem badges_handleEvent (h : p.Tagged) (event : Badge) (b : NodeName) (t : PageStage) :
    (p.handleEvent event b t).Tagged ∧ (p.handleEvent event b t).badges a s =
      repaint (if b = a then implied (event, t) s else none) (p.badges a s) := by
  have ht := h.setBadge event b t
  have hb : (p.setBadge event b t).badges a s = _ := badges_setBadge h event b t
  have hself : t ∉ Page.skippedAfter t := by cases t <;> decide
  rw [Page.handleEvent]
  by_cases he : event = .error
  · obtain ⟨hk, hs⟩ := skip_all (a := a) (b := b) (s := s) ht (Page.skippedAfter t)
    rw [if_pos he]
    refine ⟨hk, ?_⟩
    rw [hs, hb]
    by_cases hn : b = a
    · by_cases hts : t = s
      · subst hts
        simp [repaint, implied, hn, hself]
      · by_cases hm : s ∈ Page.skippedAfter t <;> simp [repaint, implied, hn, hts, hm, he]
    · simp [repaint, hn]
  · rw [if_neg he]
    refine ⟨ht, ?_⟩
    rw [hb]
    by_cases hn : b = a <;> by_cases hts : t = s <;> simp [repaint, implied, hn, hts, he]

theorem classes_handleEvent (h : p.classes = q.classes) :
    (p.handleEvent event a s).classes = (q.handleEvent event a s).classes := by
  have hset : ∀ {p q : Page} {event s}, p.classes = q.classes →
      (p.setBadge event a s).classes = (q.setBadge event a s).classes := by
    intro p q event s h
    rw [classes_setBadge, classes_setBadge, h]
  have hall : ∀ (ss : List PageStage) {p q : Page}, p.classes = q.classes →
      (ss.foldl (fun p t => p.setBadge .skipped a t) p).classes =
        (ss.foldl (fun p t => p.setBadge .skipped a t) q).classes := by
    intro ss
    induction ss with
    | nil => exact id
    | cons t ss ih => exact fun h => ih (hset h)
  simp only [Page.handleEvent]
  split
  · exact hall _ (hset h)
  · exact hset h

theorem classes_showStep : (p.showStep v x).classes = p.classes := by
  simp only [Page.showStep]
  split <;> split <;> simp [apply_ite Page.classes]

/-- Apart from announcements, a message changes no class but by its verdict. -/
theorem classes_step (hx : x.status ≠ .nodeInfo) : (p.step x).classes =
    (x.verdict.elim p fun v => p.handleEvent v.1 x.node v.2).classes := by
  rw [Page.step, Notice.verdict]
  rcases hs : x.status <;> simp only [Option.elim_some, Option.elim_none]
  case nodeInfo => exact absurd hs hx
  case svnInfo =>
    rw [Page.handleSvnInfo]
    split
    · rfl
    · simp only [classes_html]
      rfl
  case invalidUrl =>
    rw [Page.handleInvalidUrl]
    split
    · rfl
    · exact classes_html
  case dcfInfo =>
    simp only [Page.handleDcfInfo, Page.showVersion]
    split
    · simp only [classes_html]
    · rcases x.maintainer <;>
      · simp only [classes_html]
        rfl
  case buildNotRequired => exact classes_handleEvent (by simp)
  case buildComplete | buildbinComplete | checkCmd => exact classes_handleEvent (by simp)
  case postProcessing =>
    rw [Page.handlePostProcessing]
    split
    · exact classes_showStep
    · exact classes_showStep
  case building | checking | buildingbin => exact classes_append
  case clearCheckConsole | rBuildbinCmd => exact classes_html
  case rCmd => simp [Page.handleBuildStart]
  all_goals rfl

/-- The elements that an announcement adds. -/
def nodeElements (node : NodeName) : Document := appendMe node ++ summaryTemplate node

theorem classes_gotNewNode : (p.gotNewNode x).classes =
    p.classes ++ (nodeElements x.node).map Element.classes := by
  have hadd : ∀ {q : Page} {d : Document},
      ({ q with document := q.document ++ d } : Page).classes =
        q.classes ++ d.map Element.classes := fun {_ _} => List.map_append
  simp only [Page.gotNewNode, classes_html, hadd]
  rw [nodeElements, List.map_append, List.append_assoc]

theorem classes_nodeElements {cs : List Str}
    (h : cs ∈ (nodeElements b).map Element.classes) :
    cs = [] ∨ ∃ t, cs = [Badge.inProgress.className, selector b t] := by
  simp only [nodeElements, appendMe, summaryTemplate, badgeElement, List.cons_append,
    List.nil_append, List.map_cons, List.map_nil, List.mem_cons, List.not_mem_nil, or_false] at h
  rcases h with h | h | h | h | h | h | h | h | h | h | h | h | h | h | h | h | h | h | h | h | h |
    h | h | h
  all_goals first | exact .inl h | exact .inr ⟨_, h⟩

theorem selector_mem_new {cs : List Str} (h : cs ∈ (nodeElements b).map Element.classes)
    (hm : selector a s ∈ cs) : b = a ∧ cs = [Badge.inProgress.className, selector a s] := by
  rcases classes_nodeElements h with rfl | ⟨t, rfl⟩
  · cases hm
  · rcases List.mem_cons.mp hm with he | hm
    · exact absurd (he ▸ className_mem) selector_not_badge
    · obtain ⟨rfl, rfl⟩ := selector_injective (List.mem_singleton.mp hm)
      exact ⟨rfl, rfl⟩

/-- The badges that an announcement adds. -/
def newBadges (stage : PageStage) : List (List Str) :=
  List.replicate (copies stage) [Badge.inProgress.className]

theorem badges_new : (((nodeElements b).map Element.classes).filter (selector a s ∈ ·)).map
    (·.filter (· ∈ badgeClasses)) = if b = a then newBadges s else [] := by
  have hbadge : Badge.inProgress.className ≠ selector a s := by
    intro h
    exact selector_not_badge (h ▸ @className_mem .inProgress)
  split
  next hb =>
    subst hb
    have hown : ∀ t, selector b s = selector b t ↔ s = t :=
      fun t => ⟨fun h => (selector_injective h).2, fun h => h ▸ rfl⟩
    have hne : selector b s ≠ Badge.inProgress.className := hbadge.symm
    cases s <;> simp [nodeElements, appendMe, summaryTemplate, badgeElement, hown, hne, newBadges,
      copies, className_mem, selector_not_badge]
  next hb =>
    rw [List.map_eq_nil_iff, List.filter_eq_nil_iff]
    intro cs hcs hm
    exact hb (selector_mem_new hcs (by simpa using hm)).1

theorem Page.Tagged.congr (h : p.Tagged) (hc : q.classes = p.classes) : q.Tagged := by
  intro cs hcs
  rw [hc] at hcs
  exact h cs hcs

theorem badges_congr (hc : q.classes = p.classes) : q.badges a s = p.badges a s := by
  rw [Page.badges, Page.badges, hc]

/-- What one message does to the badges of a node. -/
theorem badges_step (h : p.Tagged) : (p.step x).Tagged ∧ (p.step x).badges a s =
    repaint (x.tells a s) (p.badges a s) ++ if x.announces a then newBadges s else [] := by
  by_cases hx : x.status = .nodeInfo
  · have hstep : (p.step x).classes = p.classes ++ (nodeElements x.node).map Element.classes := by
      rw [Page.step, hx]
      exact classes_gotNewNode
    have htells : x.tells a s = none := by simp [Notice.tells, Notice.verdict, hx]
    have hann : x.announces a = decide (x.node = a) := by simp [Notice.announces, hx]
    constructor
    · intro cs hcs b t c u hb hc
      rw [hstep, List.mem_append] at hcs
      rcases hcs with hcs | hcs
      · exact h cs hcs b t c u hb hc
      · obtain ⟨-, he⟩ := selector_mem_new hcs hb
        obtain ⟨-, he'⟩ := selector_mem_new hcs hc
        rw [he] at he'
        exact selector_injective (List.cons.inj (List.cons.inj he').2).1
    · rw [Page.badges, hstep, List.filter_append, List.map_append, badges_new, htells, hann, repaint,
        Option.elim_none, Page.badges]
      simp
  · have hann : x.announces a = false := by simp [Notice.announces, hx]
    have hstep := classes_step (p := p) hx
    rw [hann]
    rcases hv : x.verdict with _ | ⟨event, t⟩
    · rw [hv, Option.elim_none] at hstep
      refine ⟨h.congr hstep, ?_⟩
      rw [badges_congr hstep]
      simp [Notice.tells, hv, repaint]
    · rw [hv, Option.elim_some] at hstep
      obtain ⟨ht, hb⟩ : _ ∧ (p.handleEvent event x.node t).badges a s = _ :=
        badges_handleEvent h event x.node t
      refine ⟨ht.congr hstep, ?_⟩
      rw [badges_congr hstep, hb, Notice.tells, hv, Option.bind_some]
      simp

theorem page_run_concat : Page.run (xs ++ [x]) = (Page.run xs).step x := by
  rw [Page.run, List.foldl_append]
  rfl

theorem tagged_run (xs : List Notice) : (Page.run xs).Tagged := by
  induction xs using List.reverseRecOn with
  | nil =>
    intro cs hcs a s b t ha
    have hnil : cs = [] := by simpa [Page.run, Page.start, Page.classes] using hcs
    subst hnil
    cases ha
  | append_singleton xs x ih =>
    rw [page_run_concat]
    exact (badges_step (a := x.node) (s := .build) ih).1

theorem announced_concat : announced a (xs ++ [x]) =
    (announced a xs).map (· ++ [x]) ++ if x.announces a then [[]] else [] := by
  induction xs with
  | nil => rcases hx : x.announces a <;> simp [announced, hx]
  | cons y ys ih =>
    rw [List.cons_append, announced, announced, ih]
    split
    · rw [List.map_cons, List.cons_append]
    · rfl

theorem lastVerdict_concat : lastVerdict a s (xs ++ [x]) = (x.tells a s).getD (lastVerdict a s xs) := by
  rw [lastVerdict, lastVerdict, List.filterMap_append]
  rcases hx : x.tells a s with _ | event
  · simp [hx]
  · simp [hx]

theorem badges_run : (Page.run xs).badges a s = (announced a xs).flatMap fun later =>
    List.replicate (copies s) [(lastVerdict a s later).className] := by
  induction xs using List.reverseRecOn with
  | nil => rfl
  | append_singleton xs x ih =>
    have hrepaint : ∀ later, List.replicate (copies s)
        [(lastVerdict a s (later ++ [x])).className] = repaint (x.tells a s)
          (List.replicate (copies s) [(lastVerdict a s later).className]) := by
      intro later
      rw [lastVerdict_concat]
      rcases x.tells a s <;> simp [repaint]
    rw [page_run_concat, (badges_step (tagged_run xs)).2, ih, announced_concat, List.flatMap_append,
      List.flatMap_map]
    simp only [hrepaint]
    congr 1
    · rcases x.tells a s <;> simp [repaint, List.map_flatMap]
    · split
      · exact (List.append_nil _).symm
      · rfl

/-- The messages of one node. -/
def ofNode (node : NodeName) (xs : List Notice) : List Notice := xs.filter (·.node = node)

theorem announced_ofNode : announced a (ofNode a xs) = (announced a xs).map (ofNode a) := by
  induction xs with
  | nil => rfl
  | cons x xs ih =>
    by_cases hn : x.node = a
    · rw [ofNode, List.filter_cons_of_pos (by simpa using hn), announced, announced]
      split
      · exact congrArg _ ih
      · exact ih
    · have hx : ¬ x.announces a = true := by simp [Notice.announces, hn]
      rw [ofNode, List.filter_cons_of_neg (by simpa using hn), announced, if_neg hx]
      exact ih

theorem lastVerdict_ofNode : lastVerdict a s (ofNode a xs) = lastVerdict a s xs := by
  rw [lastVerdict, lastVerdict, ofNode, List.filterMap_filter]
  congr 2
  refine List.filterMap_congr fun x _ => ?_
  by_cases hn : x.node = a <;> simp [Notice.tells, hn]

theorem badges_ofNode : (Page.run (ofNode a xs)).badges a s = (Page.run xs).badges a s := by
  rw [badges_run, badges_run, announced_ofNode, List.flatMap_map]
  simp only [lastVerdict_ofNode]

/-- Messages that announce and say the same make the same badges. -/
theorem badges_alike {ι : Type} {l : List ι} {f g : ι → Notice}
    (ha : ∀ i, (f i).announces a = (g i).announces a) (hs : ∀ i, (f i).tells a s = (g i).tells a s) :
    (Page.run (l.map f)).badges a s = (Page.run (l.map g)).badges a s := by
  have hlast : ∀ l' : List ι, lastVerdict a s (l'.map f) = lastVerdict a s (l'.map g) := by
    intro l'
    rw [lastVerdict, lastVerdict, List.filterMap_map, List.filterMap_map]
    congr 2
    exact List.filterMap_congr fun i _ => hs i
  rw [badges_run, badges_run]
  induction l with
  | nil => rfl
  | cons i l ih =>
    rw [List.map_cons, List.map_cons, announced, announced, ha i]
    split
    · rw [List.flatMap_cons, List.flatMap_cons, ih, hlast]
    · exact ih

/-- Whatever messages come from whichever nodes, there are badges of a node for each time it was
announced, and each tells the last verdict on its stage since then: they are the same as if no other
node had sent anything. -/
theorem badges_tell (xs : List Notice) (node : NodeName) (stage : PageStage) :
    (Page.run xs).badges node stage = ((announced node xs).flatMap fun later =>
        List.replicate (copies stage) [(lastVerdict node stage later).className]) ∧
      (Page.run xs).badges node stage = (Page.run (ofNode node xs)).badges node stage :=
  ⟨badges_run, badges_ofNode.symm⟩

end PackageBuilder
