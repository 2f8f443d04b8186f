import Mecmcp.Policy.XmlPath

/-!
# XmlBlocked — the read blocks of a document

`blocked_read_paths` visits the elements in document order, skips repeats, cuts prefixes out of the
joined path and stops inserting at the first prefix it finds.  `blocked_read_paths_eq_policy` says
that the result is the declarative one: the prefixes of the document's paths that run into a denied
path.
-/

namespace Mecmcp.Policy

open List

open Paths

variable {paths : List ElementPath} {name name' : Text} {attrs : Except Text Unit} {S : Type}
  {walk walk' : Walk (List ElementPath)} {events : List XmlEvent}

/-! ### Names and paths -/

/-- A name `local_name` accepts. -/
def ValidName (name : Text) : Prop := name ≠ [] ∧ '/' ∉ name

theorem localName_ok (h : localName name = .ok name') :
    name' = name ∧ ValidName name := by
  rw [localName] at h
  split_ifs at h with hbad
  have hname : name.isEmpty = false ∧
      name.any (fun c => isWhitespace c || reservedNameChars.contains c) = false := by
    simpa only [Bool.or_eq_true, not_or, Bool.not_eq_true] using hbad
  refine ⟨(Except.ok.inj h).symm, by simpa using hname.1, fun hslash => ?_⟩
  have hany := any_eq_false.mp hname.2 '/' hslash
  exact hany (by decide)

variable {p q : ElementPath}

theorem pathString_injective (hp : p ≠ []) (hq : q ≠ [])
    (hpnames : ∀ name ∈ p, ValidName name) (hqnames : ∀ name ∈ q, ValidName name)
    (h : pathString p = pathString q) : p = q :=
  join_injective hp hq (fun name hname => (hpnames name hname).2)
    (fun name hname => (hqnames name hname).2) h

theorem map_sliceTo_offsets (path : ElementPath) :
    (offsets path).map (sliceTo (pathString path)) = (prefixes path).map pathString :=
  map_takeWeight_offsetsFrom Char.utf8Size_pos '/' [] path

/-! ### Document order -/

/-- The paths of a document from its start: each is a path met before, or the root, with one more
name. -/
inductive DocumentOrder : List ElementPath → Prop
  | nil : DocumentOrder []
  | snoc {paths : List ElementPath} {stack : ElementPath} {name : Text} (h : DocumentOrder paths)
      (hstack : ∀ p ∈ prefixes stack, p ∈ paths) (hnames : ∀ n ∈ stack, ValidName n)
      (hname : ValidName name) : DocumentOrder (paths ++ [stack ++ [name]])

namespace DocumentOrder

theorem names (h : DocumentOrder paths) : ∀ path ∈ paths, ∀ name ∈ path, ValidName name := by
  induction h with
  | nil => simp
  | snoc _ _ hnames hname ih =>
    intro path hpath
    rcases mem_append.mp hpath with hpath | hpath
    · exact ih path hpath
    · rw [mem_singleton.mp hpath]
      intro n hn
      rcases mem_append.mp hn with hn | hn
      · exact hnames n hn
      · rw [mem_singleton.mp hn]
        exact hname

theorem ne_nil (h : DocumentOrder paths) : ∀ path ∈ paths, path ≠ [] := by
  induction h with
  | nil => simp
  | snoc _ _ _ _ ih =>
    intro path hpath
    rcases mem_append.mp hpath with hpath | hpath
    · exact ih path hpath
    · rw [mem_singleton.mp hpath]
      simp

theorem mem_of_prefix (h : DocumentOrder paths) (hq : q ∈ paths) (hp : p ≠ [])
    (hpq : p <+: q) : p ∈ paths := by
  induction h with
  | nil => simp at hq
  | snoc _ hstack _ _ ih =>
    rcases mem_append.mp hq with hq | hq
    · exact mem_append_left _ (ih hq)
    · rw [mem_singleton.mp hq, prefix_concat_iff] at hpq
      rcases hpq with rfl | hpq
      · exact mem_append_right _ (mem_singleton_self _)
      · exact mem_append_left _ (hstack p (mem_prefixes.mpr ⟨hp, hpq⟩))

end DocumentOrder

/-! ### The walk -/

/-- The elements on the stack have been met. -/
structure Walk.Ordered (walk : Walk (List ElementPath)) : Prop where
  order : DocumentOrder walk.kept
  stack : ∀ p ∈ prefixes walk.stack, p ∈ walk.kept
  names : ∀ name ∈ walk.stack, ValidName name

def checkElement (depth elementCount : ℕ) (name : Text) (attrs : Except Text Unit) :
    Except XmlPathError Text := do
  if maxDepth ≤ depth then throw .tooDeep
  validateAttrs attrs
  if maxElements < elementCount + 1 then throw .tooLarge
  localName name

theorem checkElement_ok {depth elementCount : ℕ} :
    checkElement depth elementCount name attrs = .ok name' ↔
      depth < maxDepth ∧ attrs = .ok () ∧ elementCount < maxElements ∧ localName name = .ok name' := by
  rw [checkElement]
  by_cases hdepth : maxDepth ≤ depth
  · rw [if_pos hdepth]
    exact iff_of_false nofun fun h => absurd h.1 (Nat.not_lt.mpr hdepth)
  · rw [if_neg hdepth]
    cases attrs with
    | error => exact iff_of_false nofun fun h => absurd h.2.1 nofun
    | ok =>
      by_cases hlarge : maxElements < elementCount + 1
      · rw [if_pos hlarge]
        exact iff_of_false nofun fun h => absurd h.2.2.1 (by omega)
      · rw [if_neg hlarge]
        exact ⟨fun h => ⟨by omega, rfl, by omega, h⟩, fun h => h.2.2.2⟩

theorem Walk.push_eq (onElement : S → ElementPath → S) (walk : Walk S) (name : Text)
    (attrs : Except Text Unit) : walk.push onElement name attrs =
      (checkElement walk.stack.length walk.elementCount name attrs).map fun name =>
        ⟨walk.stack ++ [name], walk.elementCount + 1,
          onElement walk.kept (walk.stack ++ [name])⟩ := by
  rw [Walk.push, checkElement]
  by_cases hdepth : maxDepth ≤ walk.stack.length
  · rw [if_pos hdepth, if_pos hdepth]
    rfl
  · rw [if_neg hdepth, if_neg hdepth]
    cases attrs with
    | error => rfl
    | ok =>
      by_cases hlarge : maxElements < walk.elementCount + 1
      · rw [if_pos hlarge, if_pos hlarge]
        rfl
      · rw [if_neg hlarge, if_neg hlarge]
        cases localName name <;> rfl

theorem Walk.push_ok {onElement : S → ElementPath → S} {walk walk' : Walk S}
    (h : walk.push onElement name attrs = .ok walk') :
    ValidName name ∧ walk' = ⟨walk.stack ++ [name], walk.elementCount + 1,
      onElement walk.kept (walk.stack ++ [name])⟩ := by
  rw [Walk.push_eq] at h
  cases hcheck : checkElement walk.stack.length walk.elementCount name attrs with
  | error => rw [hcheck] at h; cases h
  | ok name' =>
    obtain ⟨rfl, hvalid⟩ := localName_ok (checkElement_ok.mp hcheck).2.2.2
    rw [hcheck] at h
    cases h
    exact ⟨hvalid, rfl⟩

theorem Walk.step_fold (onElement : S → ElementPath → S) (init : S)
    (walk : Walk (List ElementPath)) (event : XmlEvent) :
    Walk.step onElement ⟨walk.stack, walk.elementCount, walk.kept.foldl onElement init⟩ event =
      (walk.step (fun paths path => paths ++ [path]) event).map fun walk =>
        ⟨walk.stack, walk.elementCount, walk.kept.foldl onElement init⟩ := by
  have hpush (name : Text) (attrs : Except Text Unit) :
      Walk.push onElement ⟨walk.stack, walk.elementCount, walk.kept.foldl onElement init⟩ name attrs =
        (walk.push (fun paths path => paths ++ [path]) name attrs).map fun walk =>
          ⟨walk.stack, walk.elementCount, walk.kept.foldl onElement init⟩ := by
    rw [Walk.push_eq, Walk.push_eq]
    cases checkElement walk.stack.length walk.elementCount name attrs with
    | error => rfl
    | ok name => simp [Except.map]
  cases event with
  | start name attrs => exact hpush name attrs
  | empty name attrs =>
    simp only [Walk.step, hpush]
    cases walk.push (fun paths path => paths ++ [path]) name attrs <;> rfl
  | «end» =>
    simp only [Walk.step]
    split_ifs <;> rfl
  | docType => rfl
  | generalRef charRef predefined =>
    simp only [Walk.step]
    cases rejectNonPredefinedRef charRef predefined <;> rfl
  | other => rfl
  | failed message => rfl

theorem walkElements_eq_fold (onElement : S → ElementPath → S) (init : S)
    (events : List XmlEvent) : walkElements onElement events init =
      (elementPaths events).map fun paths => paths.foldl onElement init := by
  have hrun (walk : Walk (List ElementPath)) :
      events.foldlM (Walk.step onElement)
          ⟨walk.stack, walk.elementCount, walk.kept.foldl onElement init⟩ =
        (events.foldlM (Walk.step fun paths path => paths ++ [path]) walk).map fun walk =>
          ⟨walk.stack, walk.elementCount, walk.kept.foldl onElement init⟩ := by
    induction events generalizing walk with
    | nil => rfl
    | cons event events ih =>
      rw [foldlM_cons, foldlM_cons, Walk.step_fold]
      cases hstep : walk.step (fun paths path => paths ++ [path]) event with
      | error => rfl
      | ok next => exact ih next
  have hstart := hrun ⟨[], 0, []⟩
  simp only [foldl_nil] at hstart
  rw [elementPaths, walkElements, walkElements, hstart]
  cases events.foldlM (Walk.step fun paths path => paths ++ [path]) ⟨[], 0, []⟩ with
  | error => rfl
  | ok walk =>
    simp only [Except.map, bind, Except.bind, Walk.finish]
    split_ifs <;> rfl

theorem Walk.Ordered.push (h : walk.Ordered)
    (hpush : walk.push (fun paths path => paths ++ [path]) name attrs = .ok walk') :
    walk'.Ordered ∧ walk'.stack.dropLast = walk.stack := by
  obtain ⟨hname, rfl⟩ := Walk.push_ok hpush
  refine ⟨⟨h.order.snoc h.stack h.names hname, ?_, ?_⟩, dropLast_concat⟩
  · intro p hp
    rw [prefixes_snoc] at hp
    rcases mem_append.mp hp with hp | hp
    · exact mem_append_left _ (h.stack p hp)
    · exact mem_append_right _ hp
  · intro n hn
    rcases mem_append.mp hn with hn | hn
    · exact h.names n hn
    · rw [mem_singleton.mp hn]
      exact hname

theorem Walk.Ordered.pop (h : walk.Ordered) :
    Walk.Ordered { walk with stack := walk.stack.dropLast } where
  order := h.order
  stack p hp := by
    obtain ⟨hne, hfront⟩ := mem_prefixes.mp hp
    exact h.stack p (mem_prefixes.mpr ⟨hne, hfront.trans (List.dropLast_prefix _)⟩)
  names name hname := h.names name (mem_of_mem_dropLast hname)

theorem Walk.Ordered.step (h : walk.Ordered)
    {event : XmlEvent} (hstep : walk.step (fun paths path => paths ++ [path]) event = .ok walk') :
    walk'.Ordered := by
  cases event with
  | start name attrs => exact (h.push hstep).1
  | empty name attrs =>
    simp only [Walk.step] at hstep
    cases hpush : walk.push (fun paths path => paths ++ [path]) name attrs with
    | error => rw [hpush] at hstep; cases hstep
    | ok pushed =>
      rw [hpush] at hstep
      cases hstep
      exact (h.push hpush).1.pop
  | «end» =>
    simp only [Walk.step] at hstep
    split_ifs at hstep
    cases hstep
    exact h.pop
  | docType => cases hstep
  | generalRef charRef predefined =>
    simp only [Walk.step] at hstep
    cases href : rejectNonPredefinedRef charRef predefined with
    | error => rw [href] at hstep; cases hstep
    | ok => rw [href] at hstep; cases hstep; exact h
  | other => cases hstep; exact h
  | failed message => cases hstep

theorem Walk.Ordered.run (h : walk.Ordered)
    (hrun : events.foldlM (Walk.step fun paths path => paths ++ [path]) walk = .ok walk') :
    walk'.Ordered := by
  induction events generalizing walk with
  | nil => cases hrun; exact h
  | cons event events ih =>
    rw [foldlM_cons] at hrun
    cases hstep : walk.step (fun paths path => paths ++ [path]) event with
    | error => rw [hstep] at hrun; cases hrun
    | ok next => rw [hstep] at hrun; exact ih (h.step hstep) hrun

theorem documentOrder_elementPaths (h : elementPaths events = .ok paths) : DocumentOrder paths := by
  rw [elementPaths, walkElements] at h
  cases hrun : events.foldlM (Walk.step fun paths path => paths ++ [path]) ⟨[], 0, []⟩ with
  | error => rw [hrun] at h; cases h
  | ok walk =>
    have hordered : walk.Ordered := Walk.Ordered.run ⟨.nil, by simp, by simp⟩ hrun
    rw [hrun] at h
    change walk.finish = .ok paths at h
    rw [Walk.finish] at h
    split_ifs at h
    cases h
    exact hordered.order

/-! ### Inserting prefixes -/

/-- Stopping at the first prefix that is there loses nothing where everything shorter is there. -/
theorem mem_insertPrefixes {candidate : Text} {offsets : List ℕ} {blocked : Finset Text}
    (hnodup : (offsets.map (sliceTo candidate)).Nodup)
    (hclosed : (offsets.map (sliceTo candidate)).Pairwise fun s t => s ∈ blocked → t ∈ blocked)
    (text : Text) : text ∈ insertPrefixes candidate offsets blocked ↔
      text ∈ blocked ∨ text ∈ offsets.map (sliceTo candidate) := by
  induction offsets generalizing blocked with
  | nil => simp [insertPrefixes]
  | cons offset rest ih =>
    rw [map_cons] at hnodup hclosed ⊢
    obtain ⟨hnew, hnodup⟩ := nodup_cons.mp hnodup
    obtain ⟨hfirst, hclosed⟩ := pairwise_cons.mp hclosed
    rw [insertPrefixes]
    split_ifs with hpresent
    · refine ⟨Or.inl, fun h => h.elim id fun hmem => ?_⟩
      rcases mem_cons.mp hmem with rfl | hmem
      · exact hpresent
      · exact hfirst text hmem hpresent
    · have hclosed' : (rest.map (sliceTo candidate)).Pairwise fun s t =>
          s ∈ insert (sliceTo candidate offset) blocked →
            t ∈ insert (sliceTo candidate offset) blocked := by
        refine hclosed.imp_of_mem fun {s t} hs _ hst hmem => ?_
        rcases Finset.mem_insert.mp hmem with rfl | hmem
        · exact absurd hs hnew
        · exact Finset.mem_insert_of_mem (hst hmem)
      rw [ih hnodup hclosed', Finset.mem_insert, mem_cons]
      tauto

/-! ### The visited paths -/

variable {A : Type} [BEq A] (rules : List (CompiledRule A)) (denyAction : A)

/-- `text` is a non-empty prefix of a path that runs into a denied path. -/
def PolicyBlocks (paths : List ElementPath) (text : Text) : Prop :=
  ∃ p q r, p ≠ [] ∧ p <+: q ∧ q ∈ paths ∧ r <+: q ∧ r ∈ paths ∧
    directlyMatches rules denyAction r = true ∧ pathString p = text

/-- The variables of the walk say what the paths met so far call for. -/
structure Blocking.Describes (s : Blocking) (paths : List ElementPath) : Prop where
  directlyDenied : ∀ text, text ∈ s.directlyDenied ↔
    ∃ r ∈ paths, directlyMatches rules denyAction r = true ∧ pathString r = text
  blocked : ∀ text, text ∈ s.blocked ↔ PolicyBlocks rules denyAction paths text
  lastPath : s.lastPath = paths.getLast?

variable {rules denyAction}

theorem PolicyBlocks.mono {paths more : List ElementPath} (hsub : ∀ p ∈ paths, p ∈ more) {text : Text}
    (h : PolicyBlocks rules denyAction paths text) : PolicyBlocks rules denyAction more text := by
  obtain ⟨p, q, r, hp, hpq, hq, hrq, hr, hmatch, htext⟩ := h
  exact ⟨p, q, r, hp, hpq, hsub q hq, hrq, hsub r hr, hmatch, htext⟩

theorem DocumentOrder.blocked_prefix (h : DocumentOrder paths)
    {p p' q : ElementPath} (hq : ∀ name ∈ q, ValidName name) (hp : p ≠ []) (hpq : p <+: q)
    (hp' : p' ≠ []) (hfront : p' <+: p)
    (hblocked : PolicyBlocks rules denyAction paths (pathString p)) :
    PolicyBlocks rules denyAction paths (pathString p') := by
  obtain ⟨p₀, q₀, r, hp₀, hpq₀, hq₀, hrq, hr, hmatch, htext⟩ := hblocked
  have hnames : ∀ name ∈ p₀, ValidName name := fun name hname =>
    h.names q₀ hq₀ name (hpq₀.subset hname)
  have heq : p₀ = p :=
    pathString_injective hp₀ hp hnames (fun name hname => hq name (hpq.subset hname)) htext
  exact ⟨p', q₀, r, hp', hfront.trans (heq ▸ hpq₀), hq₀, hrq, hr, hmatch, rfl⟩

variable {s : Blocking} {path : ElementPath}

theorem Blocking.Describes.mem_insertPrefixes (h : s.Describes rules denyAction paths)
    (horder : DocumentOrder paths)
    (hnames : ∀ name ∈ path, ValidName name) (text : Text) :
    text ∈ insertPrefixes (pathString path) (offsets path).reverse s.blocked ↔
      text ∈ s.blocked ∨ ∃ p, p ≠ [] ∧ p <+: path ∧ pathString p = text := by
  have hslices : (offsets path).reverse.map (sliceTo (pathString path)) =
      (prefixes path).reverse.map pathString := by
    rw [map_reverse, map_sliceTo_offsets, map_reverse]
  have hvalid : ∀ p ∈ prefixes path, p ≠ [] ∧ ∀ name ∈ p, ValidName name := fun p hp => by
    obtain ⟨hne, hfront⟩ := mem_prefixes.mp hp
    exact ⟨hne, fun name hname => hnames name (hfront.subset hname)⟩
  have hpairs : (prefixes path).reverse.Pairwise fun p p' => p' <+: p ∧ p' ≠ p := by
    rw [pairwise_reverse]
    exact pairwise_prefixes path
  rw [Policy.mem_insertPrefixes, hslices]
  · simp only [mem_map, mem_reverse, mem_prefixes, and_assoc]
  · rw [hslices, List.Nodup, pairwise_map]
    refine hpairs.imp_of_mem fun {p p'} hp hp' hpp' heq => hpp'.2 ?_
    obtain ⟨hne, hvalidp⟩ := hvalid p (mem_reverse.mp hp)
    obtain ⟨hne', hvalidp'⟩ := hvalid p' (mem_reverse.mp hp')
    exact pathString_injective hne' hne hvalidp' hvalidp heq.symm
  · rw [hslices, pairwise_map]
    refine hpairs.imp_of_mem fun {p p'} hp hp' hpp' hblocked => ?_
    obtain ⟨hne, hfront⟩ := mem_prefixes.mp (mem_reverse.mp hp)
    obtain ⟨hne', -⟩ := mem_prefixes.mp (mem_reverse.mp hp')
    exact (h.blocked _).mpr
      (horder.blocked_prefix hnames hne hfront hne' hpp'.1 ((h.blocked _).mp hblocked))

variable {stack : ElementPath}

theorem Blocking.Describes.descendantOfDenied (h : s.Describes rules denyAction paths)
    (horder : DocumentOrder paths)
    (name : Text) (hnames : ∀ n ∈ stack, ValidName n) :
    ((offsets (stack ++ [name])).dropLast.any fun offset =>
        decide (sliceTo (pathString (stack ++ [name])) offset ∈ s.directlyDenied)) = true ↔
      ∃ r ∈ paths, r <+: stack ∧ directlyMatches rules denyAction r = true := by
  have hslices : (offsets (stack ++ [name])).dropLast.map (sliceTo (pathString (stack ++ [name]))) =
      (prefixes stack).map pathString := by
    rw [map_dropLast, map_sliceTo_offsets, prefixes_snoc, map_append, map_singleton,
      dropLast_concat]
  have hany : ((offsets (stack ++ [name])).dropLast.any fun offset =>
      decide (sliceTo (pathString (stack ++ [name])) offset ∈ s.directlyDenied)) = true ↔
      ∃ text ∈ (prefixes stack).map pathString, text ∈ s.directlyDenied := by
    rw [← hslices]
    simp only [any_eq_true, decide_eq_true_eq, mem_map, exists_exists_and_eq_and]
  rw [hany]
  constructor
  · rintro ⟨_, htext, hdenied⟩
    obtain ⟨p, hp, rfl⟩ := mem_map.mp htext
    obtain ⟨hne, hfront⟩ := mem_prefixes.mp hp
    obtain ⟨r, hr, hmatch, heq⟩ := (h.directlyDenied _).mp hdenied
    have hrp : r = p := pathString_injective (horder.ne_nil r hr) hne (horder.names r hr)
      (fun n hn => hnames n (hfront.subset hn)) heq
    exact ⟨r, hr, hrp ▸ hfront, hmatch⟩
  · rintro ⟨r, hr, hfront, hmatch⟩
    refine ⟨pathString r, mem_map_of_mem (mem_prefixes.mpr ⟨horder.ne_nil r hr, hfront⟩), ?_⟩
    exact (h.directlyDenied _).mpr ⟨r, hr, hmatch, rfl⟩

theorem DocumentOrder.policyBlocks_snoc (horder : DocumentOrder paths) {name : Text}
    (hstack : ∀ p ∈ prefixes stack, p ∈ paths) (text : Text) :
    PolicyBlocks rules denyAction (paths ++ [stack ++ [name]]) text ↔
      PolicyBlocks rules denyAction paths text ∨
        ((directlyMatches rules denyAction (stack ++ [name]) = true ∨
            ∃ r ∈ paths, r <+: stack ∧ directlyMatches rules denyAction r = true) ∧
          ∃ p, p ≠ [] ∧ p <+: stack ++ [name] ∧ pathString p = text) := by
  have hlast : stack ++ [name] ∈ paths ++ [stack ++ [name]] :=
    mem_append_right _ (mem_singleton_self _)
  constructor
  · rintro ⟨p, q, r, hp, hpq, hq, hrq, hr, hmatch, htext⟩
    have hrne : r ≠ [] := by
      rcases mem_append.mp hr with hr | hr
      · exact horder.ne_nil r hr
      · rw [mem_singleton.mp hr]
        simp
    rcases mem_append.mp hq with hq | hq
    · -- a path met before has all its ancestors among those met before
      exact Or.inl ⟨p, q, r, hp, hpq, hq, hrq, horder.mem_of_prefix hq hrne hrq, hmatch, htext⟩
    · rw [mem_singleton.mp hq] at hpq hrq
      refine Or.inr ⟨?_, p, hp, hpq, htext⟩
      rcases prefix_concat_iff.mp hrq with rfl | hrstack
      · exact Or.inl hmatch
      · exact Or.inr ⟨r, hstack r (mem_prefixes.mpr ⟨hrne, hrstack⟩), hrstack, hmatch⟩
  · rintro (h | ⟨hdenied, p, hp, hpq, htext⟩)
    · exact h.mono fun p hp => mem_append_left _ hp
    · rcases hdenied with hmatch | ⟨r, hr, hrstack, hmatch⟩
      · exact ⟨p, _, _, hp, hpq, hlast, prefix_rfl, hlast, hmatch, htext⟩
      · exact ⟨p, _, r, hp, hpq, hlast, hrstack.trans (prefix_append _ _),
          mem_append_left _ hr, hmatch, htext⟩

theorem Blocking.Describes.repeat (h : s.Describes rules denyAction paths)
    (hlast : s.lastPath = some path) :
    s.Describes rules denyAction (paths ++ [path]) := by
  have hmem : path ∈ paths := mem_of_getLast? (h.lastPath ▸ hlast)
  have hsub : ∀ p ∈ paths ++ [path], p ∈ paths := by
    intro p hp
    rcases mem_append.mp hp with hp | hp
    · exact hp
    · exact mem_singleton.mp hp ▸ hmem
  have hsup : ∀ p ∈ paths, p ∈ paths ++ [path] := fun p hp => mem_append_left _ hp
  refine ⟨fun text => ?_, fun text => ?_, ?_⟩
  · rw [h.directlyDenied]
    exact ⟨fun ⟨r, hr, hrest⟩ => ⟨r, hsup r hr, hrest⟩, fun ⟨r, hr, hrest⟩ => ⟨r, hsub r hr, hrest⟩⟩
  · rw [h.blocked]
    exact ⟨PolicyBlocks.mono hsup, PolicyBlocks.mono hsub⟩
  · rw [hlast, getLast?_concat]

theorem Blocking.Describes.visit (h : s.Describes rules denyAction paths)
    (horder : DocumentOrder paths)
    {name : Text} (hstack : ∀ p ∈ prefixes stack, p ∈ paths) (hnames : ∀ n ∈ stack, ValidName n)
    (hname : ValidName name) :
    (s.visit rules denyAction (stack ++ [name])).Describes rules denyAction
      (paths ++ [stack ++ [name]]) := by
  rw [Blocking.visit]
  split_ifs with hlast
  · exact h.repeat hlast
  · have hvalid : ∀ n ∈ stack ++ [name], ValidName n := fun n hn => by
      rcases mem_append.mp hn with hn | hn
      · exact hnames n hn
      · exact mem_singleton.mp hn ▸ hname
    refine ⟨fun text => ?_, fun text => ?_, by rw [getLast?_concat]⟩
    · simp only [mem_append, mem_singleton, or_and_right, exists_or, exists_eq_left,
        ← h.directlyDenied]
      cases directlyMatches rules denyAction (stack ++ [name]) with
      | true => simp [or_comm, eq_comm]
      | false => simp
    · have hdescendant := h.descendantOfDenied horder name hnames
      rw [horder.policyBlocks_snoc hstack, ← hdescendant, ← h.blocked, ← Bool.or_eq_true]
      dsimp only
      split_ifs with hdenied
      · rw [h.mem_insertPrefixes horder hvalid]
        exact or_congr_right (and_iff_right hdenied).symm
      · exact (or_iff_left fun hblocked => hdenied hblocked.1).symm

variable (rules denyAction)

theorem DocumentOrder.describes (horder : DocumentOrder paths) :
    (paths.foldl (Blocking.visit rules denyAction) ⟨∅, ∅, none⟩).Describes rules denyAction
      paths := by
  induction horder with
  | nil => exact ⟨by simp, by simp [PolicyBlocks], rfl⟩
  | snoc horder hstack hnames hname ih =>
    rw [foldl_append, foldl_cons, foldl_nil]
    exact ih.visit horder hstack hnames hname

/-- **The read blocks of a document are those of the policy.**  For a document that the walk accepts
the blocked texts are the joined non-empty prefixes of the document's paths that run into a path the
rules deny.  They are closed under prefixes, and a path of the document is blocked exactly when it is
an ancestor of, equal to or a descendant of a denied one. -/
theorem blocked_read_paths_eq_policy (events : List XmlEvent) (paths : List ElementPath)
    (hpaths : elementPaths events = .ok paths) :
    ∃ blocked, blockedReadPaths rules denyAction events = .ok blocked ∧
      (∀ text, text ∈ blocked ↔ ∃ p q r, p ≠ [] ∧ p <+: q ∧ q ∈ paths ∧ r <+: q ∧ r ∈ paths ∧
        directlyMatches rules denyAction r = true ∧ pathString p = text) ∧
      (∀ p q, q ∈ paths → p ≠ [] → p <+: q → isReadBlocked blocked q = true →
        isReadBlocked blocked p = true) ∧
      ∀ p ∈ paths, isReadBlocked blocked p = true ↔
        ∃ r ∈ paths, directlyMatches rules denyAction r = true ∧ (p <+: r ∨ r <+: p) := by
  have horder := documentOrder_elementPaths hpaths
  have hdescribes := horder.describes rules denyAction
  refine ⟨_, ?_, hdescribes.blocked, fun p q hq hp hpq hblocked => ?_, fun p hp => ?_⟩
  · rw [blockedReadPaths, walkElements_eq_fold, hpaths]
    rfl
  · rw [isReadBlocked, decide_eq_true_eq, hdescribes.blocked] at hblocked ⊢
    exact horder.blocked_prefix (horder.names q hq) (horder.ne_nil q hq) prefix_rfl hp hpq
      hblocked
  · rw [isReadBlocked, decide_eq_true_eq, hdescribes.blocked]
    constructor
    · rintro ⟨p₀, q, r, hp₀, hpq, hq, hrq, hr, hmatch, heq⟩
      have hp₀p : p₀ = p := pathString_injective hp₀ (horder.ne_nil p hp)
        (fun name hname => horder.names q hq name (hpq.subset hname)) (horder.names p hp) heq
      exact ⟨r, hr, hmatch, prefix_or_prefix_of_prefix (hp₀p ▸ hpq) hrq⟩
    · rintro ⟨r, hr, hmatch, hpr | hrp⟩
      · exact ⟨p, r, r, horder.ne_nil p hp, hpr, hr, prefix_rfl, hr, hmatch, rfl⟩
      · exact ⟨p, p, r, horder.ne_nil p hp, prefix_rfl, hp, hrp, hr, hmatch, rfl⟩

/-- In `<a><b/><c/></a>` with `a/b` denied, `a` is blocked and `a/c` is not. -/
theorem sibling_of_denied_not_blocked :
    let rule : CompiledRule Bool := ⟨['a', '/', 'b'], false, .device, (· == ['a', '/', 'b']), (3, 3)⟩
    let events : List XmlEvent :=
      [.start ['a'] (.ok ()), .empty ['b'] (.ok ()), .empty ['c'] (.ok ()), .end]
    ∃ blocked, blockedReadPaths [rule] false events = .ok blocked ∧
      isReadBlocked blocked [['a']] = true ∧ isReadBlocked blocked [['a'], ['c']] = false := by
  intro rule events
  obtain ⟨blocked, hblocked, -, -, hiff⟩ := blocked_read_paths_eq_policy [rule] false events
    [[['a']], [['a'], ['b']], [['a'], ['c']]] rfl
  refine ⟨blocked, hblocked, ?_, ?_⟩
  · exact (hiff [['a']] (by decide)).mpr (by decide)
  · rw [← Bool.not_eq_true, hiff [['a'], ['c']] (by decide)]
    decide

end Mecmcp.Policy
