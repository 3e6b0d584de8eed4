import PackageBuilder.Web.Badges

/-! What a page shows of one node: the messages of the others leave it alone, but for the command that
installs the package. -/
namespace PackageBuilder
open Text

/-- What an element is selected by: its identifier, and its classes but for the badge. -/
def Element.tag (e : Element) : Str × List Str := (e.id, e.classes.filter (· ∉ badgeClasses))

def nodeTags (a : NodeName) : List (Str × List Str) := (nodeElements a).map Element.tag

/-- The elements of a node but for its install command, for which the script takes the name of the
package from the first message that has one. -/
def ownTags (a : NodeName) : List (Str × List Str) :=
  (nodeTags a).filter fun t => t.1 ≠ nodeId a "install_command"

/-- What a document shows of a node. -/
def nodeView (a : NodeName) (d : Document) : Document := d.filter fun e => e.tag ∈ ownTags a

/-- Words that an identifier of the page could be mistaken for with. -/
def reservedWords : List Str := ["nodeinfo", "package", "version", "command", "status", "console"]

def fieldNames : List Str :=
  ["package_name", "version", "r_version", "command", "check_command", "buildbin_command",
    "started_at", "ended_at", "elapsed_time", "ret_code", "status", "build_product", "file_size",
    "build_id", "post_processing", "install_command", "console", "check_console", "buildbin_console",
    "check_event", "buildbin_event", "postprocessing_event"]

/-- The identifiers that are written to for any node. -/
def staticIds : List Str :=
  ["error", "svn_info_snapshot_date", "svn_info_svn_url", "svn_last_changed_rev", "svn_revision",
    "svn_last_changed_date", "package_name", "package_version", "package_maintainer"]

/-- Every element is one of the page as loaded or one of some node. -/
def Sound (d : Document) : Prop :=
  ∀ e ∈ d, e.tag ∈ Page.start.document.map Element.tag ∨ ∃ b, e.tag ∈ nodeTags b

variable {a b : NodeName} {s : PageStage} {e : Element} {d d' : Document} {id name : Str}
  {p q : Page} {x : Notice} {xs : List Notice} {v : Option Str} {event : Badge}
  {f : Element → Element}

theorem id_of_nodeTags (h : e.tag ∈ nodeTags b) :
    e.id = [] ∨ e.id = "nodeinfo_" ++ b.text ∨ ∃ name ∈ fieldNames, e.id = nodeId b name := by
  obtain ⟨e', he, ht⟩ := List.mem_map.mp h
  have hid : e'.id = e.id := congrArg Prod.fst ht
  rw [← hid]
  have hall : ∀ e ∈ nodeElements b, e.id = [] ∨ e.id = "nodeinfo_" ++ b.text ∨
      ∃ name ∈ fieldNames, e.id = nodeId b name := by
    simp [nodeElements, appendMe, summaryTemplate, badgeElement, fieldNames]
  exact hall e' he

theorem selector_of_nodeTags (h : e.tag ∈ nodeTags b) (hs : selector a s ∈ e.classes) : a = b := by
  obtain ⟨e', he, ht⟩ := List.mem_map.mp h
  have hc : e'.classes.filter (· ∉ badgeClasses) = e.classes.filter (· ∉ badgeClasses) :=
    congrArg Prod.snd ht
  have hm : selector a s ∈ e'.classes := by
    have hkept : selector a s ∈ e.classes.filter (· ∉ badgeClasses) :=
      List.mem_filter.mpr ⟨hs, by simpa using selector_not_badge⟩
    rw [← hc] at hkept
    exact (List.mem_filter.mp hkept).1
  exact (selector_mem_new (List.mem_map_of_mem he) hm).1.symm

/-- No element of the node that counts has this identifier. -/
def Foreign (a : NodeName) (id : Str) : Prop := ∀ e : Element, e.tag ∈ ownTags a → e.id ≠ id

/-- Any element with this identifier is one of the node that counts. -/
def Own (a : NodeName) (id : Str) : Prop :=
  ∀ e : Element, (e.tag ∈ Page.start.document.map Element.tag ∨ ∃ b, e.tag ∈ nodeTags b) →
    e.id = id → e.tag ∈ ownTags a

/-- What precedes the first underscore, and what follows it. -/
def headOf (id : Str) : Str := id.takeWhile (· ≠ '_')

def restOf (id : Str) : Str := (id.dropWhile (· ≠ '_')).tail

theorem split_nodeId : headOf (nodeId a name) = a.text ∧ restOf (nodeId a name) = name := by
  have hpos : ∀ c ∈ a.text, decide (c ≠ '_') = true := by
    intro c hc
    rw [decide_eq_true_iff]
    rintro rfl
    exact a.no_underscore hc
  rw [headOf, restOf, nodeId, List.takeWhile_append_of_pos hpos, List.dropWhile_append_of_pos hpos]
  simp

theorem split_row : headOf ("nodeinfo_" ++ a.text) = "nodeinfo" ∧
    restOf ("nodeinfo_" ++ a.text) = a.text := by
  simp [headOf, restOf, ofString]

/-- The identifier of a row is no other one of a node, unless that node has a reserved name. -/
theorem row_ne_field (ha : a.text ∉ reservedWords) (hname : name ∈ fieldNames) :
    nodeId b name ≠ "nodeinfo_" ++ a.text := by
  intro h
  have hrest : name = a.text := by rw [← @split_nodeId b name |>.2, h, split_row.2]
  have hall : ∀ n ∈ fieldNames, '_' ∈ n ∨ n ∈ reservedWords := by decide
  rcases hall name hname with hu | hr
  · exact a.no_underscore (hrest ▸ hu)
  · exact ha (hrest ▸ hr)

theorem foreign_of (hnil : id ≠ []) (hrow : id ≠ "nodeinfo_" ++ a.text)
    (hfield : ∀ name ∈ fieldNames, name ≠ "install_command" → id ≠ nodeId a name) : Foreign a id := by
  intro e he hid
  obtain ⟨ht, hi⟩ := List.mem_filter.mp he
  have hi : e.id ≠ nodeId a "install_command" := of_decide_eq_true hi
  rcases id_of_nodeTags ht with h | h | ⟨name, hname, h⟩
  · exact hnil (hid ▸ h)
  · exact hrow (hid ▸ h)
  · refine hfield name hname ?_ (hid ▸ h)
    rintro rfl
    exact hi h

theorem nodeId_ne_nil : nodeId a name ≠ [] := by simp [nodeId]

theorem foreign_field (ha : a.text ∉ reservedWords) (hab : b ≠ a) (hname : name ∈ fieldNames) :
    Foreign a (nodeId b name) := by
  refine foreign_of nodeId_ne_nil (row_ne_field ha hname) fun name' _ _ h => ?_
  exact hab (nodeId_injective h).1

theorem foreign_install (ha : a.text ∉ reservedWords) : Foreign a (nodeId a "install_command") := by
  refine foreign_of nodeId_ne_nil (row_ne_field ha (by decide)) fun name' _ hne h => ?_
  exact hne (nodeId_injective h).2.symm

theorem foreign_row (ha : a.text ∉ reservedWords) (hab : b ≠ a) :
    Foreign a ("nodeinfo_" ++ b.text) := by
  refine foreign_of (by simp [ofString]) (fun h => hab ?_) fun name' hname _ h => ?_
  · have ht : b.text = a.text := List.append_cancel_left h
    cases a
    cases b
    simpa using ht
  · have hhead : ("nodeinfo" : Str) = a.text := by rw [← split_row.1, h, split_nodeId.1]
    exact ha (by rw [← hhead]; decide)

theorem foreign_static (ha : a.text ∉ reservedWords) (hid : id ∈ staticIds) : Foreign a id := by
  have hall : ∀ k ∈ staticIds, k ≠ [] ∧ ¬ ("nodeinfo_" : Str) <+: k ∧
      (restOf k ∈ fieldNames → headOf k ∈ reservedWords) := by decide
  obtain ⟨hnil, hrow, hfield⟩ := hall id hid
  refine foreign_of hnil ?_ fun name hname _ h => ?_
  · rintro rfl
    exact hrow (List.prefix_append _ _)
  · subst h
    rw [split_nodeId.1, split_nodeId.2] at hfield
    exact ha (hfield hname)

/-- An identifier of the node belongs to it alone. -/
theorem own_of (hstatic : id ∉ staticIds) (hnil : id ≠ [])
    (hrow : ∀ b : NodeName, id = "nodeinfo_" ++ b.text → b = a)
    (hfield : ∀ b, ∀ name ∈ fieldNames, id = nodeId b name → b = a)
    (hi : id ≠ nodeId a "install_command") : Own a id := by
  intro e he hid
  rcases he with he | ⟨b, he⟩
  · obtain ⟨e', he', ht⟩ := List.mem_map.mp he
    have hall : ∀ e ∈ Page.start.document, e.id ∈ staticIds := by decide
    have hs : e'.id = e.id := congrArg Prod.fst ht
    exact absurd (hid ▸ hs ▸ hall e' he') hstatic
  · have hb : b = a := by
      rcases id_of_nodeTags he with h | h | ⟨name, hname, h⟩
      · exact absurd (hid ▸ h) hnil
      · exact hrow b (hid ▸ h)
      · exact hfield b name hname (hid ▸ h)
    subst hb
    exact List.mem_filter.mpr ⟨he, decide_eq_true fun h => hi (hid ▸ h)⟩

theorem own_field (ha : a.text ∉ reservedWords) (hname : name ∈ fieldNames)
    (hi : name ≠ "install_command") : Own a (nodeId a name) := by
  refine own_of (fun h => ?_) nodeId_ne_nil (fun b h => ?_) (fun b n _ h => (nodeId_injective h).1.symm)
    fun h => hi (nodeId_injective h).2
  · have hall : ∀ k ∈ staticIds, restOf k ∈ fieldNames → headOf k ∈ reservedWords := by decide
    have hm := hall _ h
    rw [split_nodeId.1, split_nodeId.2] at hm
    exact ha (hm hname)
  · have hhead : a.text = "nodeinfo" := by rw [← split_row.1, ← h, split_nodeId.1]
    exact absurd (hhead ▸ by decide) ha

theorem own_row (ha : a.text ∉ reservedWords) : Own a ("nodeinfo_" ++ a.text) := by
  refine own_of (fun h => ?_) (by simp [ofString]) (fun b h => ?_) (fun b name hname h => ?_) fun h => ?_
  · have hall : ∀ k ∈ staticIds, ¬ ("nodeinfo_" : Str) <+: k := by decide
    exact hall _ h (List.prefix_append _ _)
  · have ht : a.text = b.text := List.append_cancel_left h
    cases a
    cases b
    simpa using ht.symm
  · exact absurd h.symm (row_ne_field ha hname)
  · exact row_ne_field ha (by decide) h.symm

/-- Two pages that show the same of a node. -/
structure Same (a : NodeName) (p q : Page) : Prop where
  left : Sound p.document
  right : Sound q.document
  view : nodeView a p.document = nodeView a q.document

theorem Same.symm (h : Same a p q) : Same a q p := ⟨h.right, h.left, h.view.symm⟩

theorem sound_byId (hd : Sound d) (hf : ∀ e, (f e).tag = e.tag) : Sound (byId id f d) := by
  induction d with
  | nil => exact hd
  | cons e d ih =>
    obtain ⟨he, hd⟩ := List.forall_mem_cons.mp hd
    rw [byId]
    split
    · exact List.forall_mem_cons.mpr ⟨by rwa [hf], hd⟩
    · exact List.forall_mem_cons.mpr ⟨he, ih hd⟩

theorem view_byId_foreign (hid : Foreign a id) (hf : ∀ e, (f e).tag = e.tag) :
    nodeView a (byId id f d) = nodeView a d := by
  induction d with
  | nil => rfl
  | cons e d ih =>
    rw [byId]
    split
    next h =>
      have hno : e.tag ∉ ownTags a := fun he => hid e he h
      simp [nodeView, hf, hno]
    next =>
      simp only [nodeView] at ih ⊢
      rw [List.filter_cons, List.filter_cons, ih]

theorem view_byId_own (hid : Own a id) (hd : Sound d) (hf : ∀ e, (f e).tag = e.tag) :
    nodeView a (byId id f d) = byId id f (nodeView a d) := by
  induction d with
  | nil => rfl
  | cons e d ih =>
    obtain ⟨he, hd⟩ := List.forall_mem_cons.mp hd
    simp only [nodeView] at ih ⊢
    rw [byId]
    split
    next h =>
      have hyes : e.tag ∈ ownTags a := hid e he h
      simp [hf, hyes, byId, h]
    next h =>
      by_cases hyes : e.tag ∈ ownTags a
      · simp [hyes, byId, h, ih hd]
      · simp [hyes, ih hd]

theorem tag_html : (e.html v).tag = e.tag := rfl

theorem tag_append : (e.append v).tag = e.tag := rfl

theorem tag_removeClass : (e.removeClass badgeClasses).tag = e.tag := by
  simp [Element.tag, Element.removeClass, List.filter_filter]

theorem tag_addClass : (e.addClass event.className).tag = e.tag := by
  rw [Element.addClass]
  split
  · rfl
  · simp [Element.tag, List.filter_append, className_mem]

theorem sound_byClass {c : Str} (hd : Sound d) (hf : ∀ e, (f e).tag = e.tag) :
    Sound (byClass c f d) := by
  intro e he
  obtain ⟨e', he', rfl⟩ := List.mem_map.mp he
  split
  · rw [hf]
    exact hd e' he'
  · exact hd e' he'

theorem view_byClass {c : Str} (hf : ∀ e, (f e).tag = e.tag) :
    nodeView a (byClass c f d) = byClass c f (nodeView a d) := by
  induction d with
  | nil => rfl
  | cons e d ih =>
    simp only [nodeView, byClass, List.map_cons, List.filter_cons] at ih ⊢
    have htag : (if c ∈ e.classes then f e else e).tag = e.tag := by
      split
      · exact hf e
      · rfl
    rw [htag]
    split
    · rw [List.map_cons, ih]
    · exact ih

theorem view_byClass_foreign (hab : b ≠ a) (hf : ∀ e, (f e).tag = e.tag) :
    nodeView a (byClass (selector b s) f d) = nodeView a d := by
  rw [view_byClass hf, byClass]
  refine (List.map_congr_left fun e he => ?_).trans (List.map_id _)
  have ht : e.tag ∈ ownTags a := by simpa using (List.mem_filter.mp he).2
  have hno : selector b s ∉ e.classes := fun hs =>
    hab (selector_of_nodeTags (List.mem_of_mem_filter ht) hs)
  rw [if_neg hno]
  rfl

namespace Same

theorem html_foreign (h : Same a p q) (hid : Foreign a id) : Same a (p.html id v) q :=
  ⟨sound_byId h.left fun _ => tag_html, h.right,
    (view_byId_foreign hid fun _ => tag_html).trans h.view⟩

theorem append_foreign (h : Same a p q) (hid : Foreign a id) : Same a (p.append id v) q :=
  ⟨sound_byId h.left fun _ => tag_append, h.right,
    (view_byId_foreign hid fun _ => tag_append).trans h.view⟩

theorem html_own (h : Same a p q) (hid : Own a id) : Same a (p.html id v) (q.html id v) := by
  refine ⟨sound_byId h.left fun _ => tag_html, sound_byId h.right fun _ => tag_html, ?_⟩
  refine (view_byId_own hid h.left fun _ => tag_html).trans ?_
  rw [h.view]
  exact (view_byId_own hid h.right fun _ => tag_html).symm

theorem append_own (h : Same a p q) (hid : Own a id) : Same a (p.append id v) (q.append id v) := by
  refine ⟨sound_byId h.left fun _ => tag_append, sound_byId h.right fun _ => tag_append, ?_⟩
  refine (view_byId_own hid h.left fun _ => tag_append).trans ?_
  rw [h.view]
  exact (view_byId_own hid h.right fun _ => tag_append).symm

theorem sound_setBadge (hp : Sound p.document) : Sound (p.setBadge event b s).document :=
  sound_byClass (sound_byClass (sound_byClass hp fun _ => tag_removeClass) fun _ => tag_addClass)
    fun _ => tag_html

theorem setBadge_foreign (h : Same a p q) (hab : b ≠ a) : Same a (p.setBadge event b s) q := by
  refine ⟨sound_setBadge h.left, h.right, ?_⟩
  refine (view_byClass_foreign hab fun _ => tag_html).trans ?_
  refine (view_byClass_foreign hab fun _ => tag_addClass).trans ?_
  exact (view_byClass_foreign hab fun _ => tag_removeClass).trans h.view

theorem setBadge (h : Same a p q) : Same a (p.setBadge event b s) (q.setBadge event b s) := by
  have hview : ∀ d label, nodeView a (byClass (selector b s) (·.html label) (byClass (selector b s)
      (·.addClass event.className) (byClass (selector b s) (·.removeClass badgeClasses) d))) =
        byClass (selector b s) (·.html label) (byClass (selector b s) (·.addClass event.className)
          (byClass (selector b s) (·.removeClass badgeClasses) (nodeView a d))) := by
    intro d label
    rw [view_byClass fun _ => tag_html, view_byClass fun _ => tag_addClass,
      view_byClass fun _ => tag_removeClass]
  refine ⟨sound_setBadge h.left, sound_setBadge h.right, ?_⟩
  refine (hview p.document _).trans ?_
  rw [h.view]
  exact (hview q.document _).symm

theorem handleEvent_foreign (h : Same a p q) (hab : b ≠ a) : Same a (p.handleEvent event b s) q := by
  have hall : ∀ (ss : List PageStage) {p : Page}, Same a p q →
      Same a (ss.foldl (fun p t => p.setBadge .skipped b t) p) q := by
    intro ss
    induction ss with
    | nil => exact id
    | cons t ss ih => exact fun h => ih (h.setBadge_foreign hab)
  rw [Page.handleEvent]
  split
  · exact hall _ (h.setBadge_foreign hab)
  · exact h.setBadge_foreign hab

theorem handleEvent (h : Same a p q) : Same a (p.handleEvent event b s) (q.handleEvent event b s) := by
  have hall : ∀ (ss : List PageStage) {p q : Page}, Same a p q →
      Same a (ss.foldl (fun p t => p.setBadge .skipped b t) p)
        (ss.foldl (fun p t => p.setBadge .skipped b t) q) := by
    intro ss
    induction ss with
    | nil => exact id
    | cons t ss ih => exact fun h => ih h.setBadge
  rw [Page.handleEvent, Page.handleEvent]
  split
  · exact hall _ h.setBadge
  · exact h.setBadge

/-- What one message of another node writes is of no concern. -/
theorem html_apart {v' : Option Str} (h : Same a p q) (hid : Foreign a id) :
    Same a (p.html id v) (q.html id v') :=
  ((h.html_foreign hid).symm.html_foreign hid).symm

theorem left_of {p' : Page} (h : Same a p q) (hd : p'.document = p.document) : Same a p' q :=
  ⟨hd ▸ h.left, h.right, hd ▸ h.view⟩

theorem sound_add (hd : Sound d) (hnew : ∀ e ∈ d', e ∈ nodeElements b) : Sound (d ++ d') := by
  intro e he
  rcases List.mem_append.mp he with he | he
  · exact hd e he
  · exact .inr ⟨b, List.mem_map_of_mem (hnew e he)⟩

theorem add_foreign {p' : Page} (h : Same a p q) (ha : a.text ∉ reservedWords) (hab : b ≠ a)
    (hnew : ∀ e ∈ d', e ∈ nodeElements b) (hp : p'.document = p.document ++ d') : Same a p' q := by
  have hnone : nodeView a d' = [] := by
    refine List.filter_eq_nil_iff.mpr fun e he ht => ?_
    have ht : e.tag ∈ ownTags a := by simpa using ht
    have hall : ∀ e ∈ nodeElements b, (∃ t, selector b t ∈ e.classes) ∨
        e.id = "nodeinfo_" ++ b.text ∨ ∃ name ∈ fieldNames, e.id = nodeId b name := by
      have hbadge : ∀ t, ∃ t', selector b t' = selector b t := fun t => ⟨t, rfl⟩
      simp [nodeElements, appendMe, summaryTemplate, badgeElement, fieldNames, exists_or, hbadge]
    rcases hall e (hnew e he) with ⟨t, hs⟩ | hid | ⟨name, hname, hid⟩
    · exact hab (selector_of_nodeTags (List.mem_of_mem_filter ht) hs)
    · exact foreign_row ha hab e ht hid
    · exact foreign_field ha hab hname e ht hid
  refine ⟨hp ▸ sound_add h.left hnew, h.right, ?_⟩
  rw [hp, nodeView, List.filter_append]
  rw [nodeView] at hnone
  rw [hnone, List.append_nil]
  exact h.view

theorem add {p' q' : Page} (h : Same a p q) (hnew : ∀ e ∈ d', e ∈ nodeElements b)
    (hp : p'.document = p.document ++ d') (hq : q'.document = q.document ++ d') : Same a p' q' := by
  refine ⟨hp ▸ sound_add h.left hnew, hq ▸ sound_add h.right hnew, ?_⟩
  have hv := h.view
  simp only [nodeView] at hv ⊢
  rw [hp, hq, List.filter_append, List.filter_append, hv]

end Same

theorem svnInfo_static (ha : a.text ∉ reservedWords) (h : Same a p q) : Same a (p.handleSvnInfo x) q := by
  have hstatic : ∀ id ∈ staticIds, Foreign a id := fun _ hid => foreign_static ha hid
  rw [Page.handleSvnInfo]
  split
  · exact h
  · have h₀ : Same a { p with gotSvnInfo := true } q := h.left_of rfl
    exact .html_foreign (.html_foreign (.html_foreign (.html_foreign (.html_foreign h₀
      (hstatic _ (by decide))) (hstatic _ (by decide))) (hstatic _ (by decide)))
        (hstatic _ (by decide))) (hstatic _ (by decide))

theorem invalidUrl_static (ha : a.text ∉ reservedWords) (h : Same a p q) :
    Same a (p.handleInvalidUrl x) q := by
  rw [Page.handleInvalidUrl]
  split
  · exact h
  · have h₀ : Same a { p with handledInvalidUrl := true, hidden := true } q := h.left_of rfl
    exact h₀.html_foreign (foreign_static ha (by decide))

/-- What the first `dcf_info` is shown with. -/
theorem dcfInfo_static (ha : a.text ∉ reservedWords) (hm : x.maintainer ≠ none) (h : Same a p q) :
    ∃ p', Same a p' q ∧ p.handleDcfInfo x = p'.showVersion x := by
  have hstatic : ∀ id ∈ staticIds, Foreign a id := fun _ hid => foreign_static ha hid
  obtain ⟨maintainer, hm⟩ := Option.ne_none_iff_exists'.mp hm
  rw [Page.handleDcfInfo]
  split
  · exact ⟨p, h, rfl⟩
  · have h₀ : Same a { p with gotDcfInfo := true, packageName := x.packageName } q := h.left_of rfl
    rw [hm]
    exact ⟨_, .html_foreign (.html_foreign (.html_foreign h₀ (hstatic _ (by decide)))
      (hstatic _ (by decide))) (hstatic _ (by decide)), rfl⟩

/-- What one `dcf_info` of another node is shown with is of no concern. -/
theorem dcfInfo_foreign (ha : a.text ∉ reservedWords) (hx : x.node ≠ a) (h : Same a p q) :
    Same a (p.handleDcfInfo x) q := by
  have hstatic : ∀ id ∈ staticIds, Foreign a id := fun _ hid => foreign_static ha hid
  have hfield : ∀ name ∈ fieldNames, Foreign a (nodeId x.node name) :=
    fun _ hname => foreign_field ha hx hname
  have hshow : ∀ {p : Page}, Same a p q → Same a (p.showVersion x) q := fun h =>
    .html_foreign (.html_foreign h (hfield _ (by decide))) (hfield _ (by decide))
  rw [Page.handleDcfInfo]
  split
  · exact hshow h
  · have h₀ : Same a { p with gotDcfInfo := true, packageName := x.packageName } q := h.left_of rfl
    have h₁ := (h₀.html_foreign (v := x.packageName) (hstatic "package_name" (by decide))).html_foreign
      (v := x.version) (hstatic "package_version" (by decide))
    rcases x.maintainer with _ | maintainer
    · exact h₁
    · exact hshow (h₁.html_foreign (hstatic _ (by decide)))

theorem showStep_foreign (ha : a.text ∉ reservedWords) (hx : x.node ≠ a) (h : Same a p q) :
    Same a (p.showStep v x) q := by
  have hfield : ∀ name ∈ fieldNames, Foreign a (nodeId x.node name) :=
    fun _ hname => foreign_field ha hx hname
  unfold Page.showStep
  extract_lets console p₁ p₂ p₃
  have h₁ : Same a p₁ q := h.append_foreign (hfield _ (by decide))
  have h₂ : Same a p₂ q := by
    by_cases hdone : v = some "Synced repository to website" ∨ v = some "Skipped synchronization step"
    · rw [show p₂ = p₁.append console (some "DONE.") from if_pos hdone]
      exact h₁.append_foreign (hfield _ (by decide))
    · rwa [show p₂ = p₁ from if_neg hdone]
  have h₃ : Same a p₃ q := by
    dsimp only [p₃]
    split
    · exact (h₂.html_foreign (hfield _ (by decide))).html_foreign (hfield _ (by decide))
    · exact h₂
  split
  · exact h₃.html_foreign (hfield _ (by decide))
  · exact h₃

theorem step_foreign (ha : a.text ∉ reservedWords) (hx : x.node ≠ a) (h : Same a p q) :
    Same a (p.step x) q := by
  have hfield : ∀ name ∈ fieldNames, Foreign a (nodeId x.node name) :=
    fun _ hname => foreign_field ha hx hname
  rw [Page.step]
  rcases x.status <;> simp only
  case svnInfo => exact svnInfo_static ha h
  case invalidUrl => exact invalidUrl_static ha h
  case dcfInfo => exact dcfInfo_foreign ha hx h
  case nodeInfo =>
    have h₁ : Same a { p with document := p.document ++ appendMe x.node } q :=
      h.add_foreign ha hx (fun _ he => List.mem_append_left _ he) rfl
    have h₂ := h₁.html_foreign (v := some (Page.shown x.os ++ '/' :: Page.shown x.arch))
      (foreign_row ha hx)
    refine .html_foreign (.html_foreign ?_ (hfield _ (by decide))) (hfield _ (by decide))
    exact h₂.add_foreign ha hx (fun _ he => List.mem_append_right _ he) rfl
  case buildNotRequired =>
    exact .handleEvent_foreign (.html_foreign (.append_foreign h (hfield _ (by decide)))
      (hfield _ (by decide))) hx
  case building | checking | buildingbin => exact h.append_foreign (hfield _ (by decide))
  case clearCheckConsole | rBuildbinCmd => exact h.html_foreign (hfield _ (by decide))
  case postProcessing =>
    rw [Page.handlePostProcessing]
    split
    · exact showStep_foreign ha hx (h.handleEvent_foreign hx)
    · exact showStep_foreign ha hx h
  case rCmd =>
    exact .html_foreign (.html_foreign h (hfield _ (by decide))) (hfield _ (by decide))
  case buildComplete | buildbinComplete =>
    exact .handleEvent_foreign (.html_foreign (.html_foreign (.html_foreign h (hfield _ (by decide)))
      (hfield _ (by decide))) (hfield _ (by decide))) hx
  case checkCmd => exact .handleEvent_foreign (.html_foreign h (hfield _ (by decide))) hx
  case other => exact h
  all_goals exact h.handleEvent_foreign hx

theorem showStep_own (ha : x.node.text ∉ reservedWords) (h : Same x.node p q) :
    Same x.node (p.showStep v x) (q.showStep v x) := by
  have hown : ∀ name ∈ fieldNames, name ≠ "install_command" → Own x.node (nodeId x.node name) :=
    fun _ hname hi => own_field ha hname hi
  unfold Page.showStep
  extract_lets console p₁ p₂ p₃ q₁ q₂ q₃
  have h₁ : Same x.node p₁ q₁ := h.append_own (hown _ (by decide) (by decide))
  have h₂ : Same x.node p₂ q₂ := by
    by_cases hdone : v = some "Synced repository to website" ∨ v = some "Skipped synchronization step"
    · rw [show p₂ = p₁.append console (some "DONE.") from if_pos hdone,
        show q₂ = q₁.append console (some "DONE.") from if_pos hdone]
      exact h₁.append_own (hown _ (by decide) (by decide))
    · rwa [show p₂ = p₁ from if_neg hdone, show q₂ = q₁ from if_neg hdone]
  have h₃ : Same x.node p₃ q₃ := by
    dsimp only [p₃, q₃]
    rcases Page.given x.buildProduct with _ | product <;> rcases Page.given x.url with _ | url
    · exact h₂
    · exact h₂
    · exact h₂
    · exact (h₂.html_own (hown _ (by decide) (by decide))).html_apart (foreign_install ha)
  rcases Page.given x.filesize with _ | size
  · exact h₃
  · exact h₃.html_own (hown _ (by decide) (by decide))

theorem step_own (ha : x.node.text ∉ reservedWords)
    (hm : x.status = .dcfInfo → x.maintainer ≠ none) (h : Same x.node p q) :
    Same x.node (p.step x) (q.step x) := by
  have hown : ∀ name ∈ fieldNames, name ≠ "install_command" → Own x.node (nodeId x.node name) :=
    fun _ hname hi => own_field ha hname hi
  rw [Page.step, Page.step]
  rcases hs : x.status <;> simp only
  case svnInfo => exact (svnInfo_static ha (svnInfo_static ha h).symm).symm
  case invalidUrl => exact (invalidUrl_static ha (invalidUrl_static ha h).symm).symm
  case dcfInfo =>
    obtain ⟨p', h', hp⟩ := dcfInfo_static ha (hm hs) h
    obtain ⟨q', h'', hq⟩ := dcfInfo_static ha (hm hs) h'.symm
    rw [hp, hq]
    exact .html_own (.html_own h''.symm (hown _ (by decide) (by decide)))
      (hown _ (by decide) (by decide))
  case nodeInfo =>
    have h₁ : Same x.node { p with document := p.document ++ appendMe x.node }
        { q with document := q.document ++ appendMe x.node } :=
      h.add (fun _ he => List.mem_append_left _ he) rfl rfl
    have h₂ := h₁.html_own (v := some (Page.shown x.os ++ '/' :: Page.shown x.arch)) (own_row ha)
    refine .html_own (.html_own ?_ (hown _ (by decide) (by decide))) (hown _ (by decide) (by decide))
    exact h₂.add (fun _ he => List.mem_append_right _ he) rfl rfl
  case buildNotRequired =>
    exact .handleEvent (.html_apart (.append_own h (hown _ (by decide) (by decide)))
      (foreign_install ha))
  case building | checking | buildingbin => exact h.append_own (hown _ (by decide) (by decide))
  case clearCheckConsole | rBuildbinCmd => exact h.html_own (hown _ (by decide) (by decide))
  case postProcessing =>
    rw [Page.handlePostProcessing, Page.handlePostProcessing]
    split
    · exact showStep_own ha h.handleEvent
    · exact showStep_own ha h
  case rCmd =>
    exact .html_own (.html_own h (hown _ (by decide) (by decide))) (hown _ (by decide) (by decide))
  case buildComplete | buildbinComplete =>
    exact .handleEvent (.html_own (.html_own (.html_own h (hown _ (by decide) (by decide)))
      (hown _ (by decide) (by decide))) (hown _ (by decide) (by decide)))
  case checkCmd => exact .handleEvent (.html_own h (hown _ (by decide) (by decide)))
  case other => exact h
  all_goals exact h.handleEvent

theorem same_start : Same a Page.start Page.start := by
  have hs : Sound Page.start.document := fun e he => .inl (List.mem_map_of_mem he)
  exact ⟨hs, hs, rfl⟩

theorem run_same (ha : a.text ∉ reservedWords)
    (hm : ∀ x ∈ ofNode a xs, x.status = .dcfInfo → x.maintainer ≠ none) :
    Same a (Page.run xs) (Page.run (ofNode a xs)) := by
  induction xs using List.reverseRecOn with
  | nil => exact same_start
  | append_singleton xs x ih =>
    rw [ofNode, List.filter_append, List.forall_mem_append] at hm
    rw [page_run_concat, ofNode, List.filter_append]
    by_cases hx : x.node = a
    · subst hx
      rw [List.filter_cons_of_pos (by simp), List.filter_nil, page_run_concat]
      exact step_own ha (hm.2 x (by simp)) (ih hm.1)
    · rw [List.filter_cons_of_neg (by simpa using hx), List.filter_nil, List.append_nil]
      exact step_foreign ha hx (ih hm.1)

/-- However the messages of other nodes mix with those of a node, the page shows of it what it would
show if there were only its own, if each of its `dcf_info` messages has a maintainer. -/
theorem node_alone (a : NodeName) (xs : List Notice) (ha : a.text ∉ reservedWords)
    (hm : ∀ x ∈ ofNode a xs, x.status = .dcfInfo → x.maintainer ≠ none) :
    nodeView a (Page.run xs).document = nodeView a (Page.run (ofNode a xs)).document :=
  (run_same ha hm).view

theorem lamb_plain : ∀ text ∈ [("lamb1" : Str), "lamb2"],
    (∀ c ∈ text, c.isAlphanum = true ∨ c = '-') ∧ text ≠ "NODENAME" := by
  simp [ofString]

def lamb1 : NodeName where
  text := "lamb1"
  plain := (lamb_plain _ List.mem_cons_self).1
  noTemplate := (lamb_plain _ List.mem_cons_self).2

def lamb2 : NodeName where
  text := "lamb2"
  plain := (lamb_plain _ (List.mem_cons_of_mem _ List.mem_cons_self)).1
  noTemplate := (lamb_plain _ (List.mem_cons_of_mem _ List.mem_cons_self)).2

/-- Two nodes that announce themselves and tell of their builds. -/
def twoNodes : List Notice :=
  [{ status := .nodeInfo, node := lamb2, os := some "Linux", plain := by decide },
    { status := .nodeInfo, node := lamb1, os := some "Windows", plain := by decide },
    { status := .dcfInfo, node := lamb1, packageName := some "spbtest5", plain := by decide },
    { status := .building, node := lamb1, body := some "* checking", plain := by decide },
    { status := .dcfInfo, node := lamb2, packageName := some "spbtest5",
      maintainer := some "maintainer <maintainer@bioconductor.org>", plain := by decide },
    { status := .buildComplete, node := lamb2, resultCode := some 0, plain := by decide }]

theorem lamb2_alone : nodeView lamb2 (Page.run twoNodes).document =
    nodeView lamb2 (Page.run (ofNode lamb2 twoNodes)).document :=
  node_alone lamb2 twoNodes (by decide) (by decide)

end PackageBuilder
