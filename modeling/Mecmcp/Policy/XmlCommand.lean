import Mecmcp.Policy.XmlBlocked

/-!
# XmlCommand — the path of a command

`canonical_command_path` keeps child counts and a leaf where `element_paths` keeps every path.  While
it accepts, both are at a place of one chain of names: still opening it, or closing it from its leaf.
`canonical_command_path_names_chain` says that it accepts exactly the documents that are such a chain
and answers the chain.
-/

namespace Mecmcp.Policy

open List

open Paths

variable {chain : ElementPath} {name : Text} {attrs : Except Text Unit} {e : XmlPathError}
  {c : Command} {walk : Walk (List ElementPath)} {event : XmlEvent} {k : ℕ}

/-! ### Lists of prefixes -/

theorem prefixes_injective {chain' : ElementPath} (h : prefixes chain = prefixes chain') :
    chain = chain' := by
  have hlast (path : ElementPath) : (prefixes path).getLast?.getD [] = path := by
    induction path using List.reverseRecOn with
    | nil => rfl
    | append_singleton path name _ => rw [prefixes_snoc, getLast?_concat, Option.getD_some]
  rw [← hlast chain, h, hlast chain']

def Branched (paths : List ElementPath) : Prop := ∀ chain more, paths ++ more ≠ prefixes chain

theorem branched_snoc {path : ElementPath} (h : path.length ≤ chain.length) :
    Branched (prefixes chain ++ [path]) := by
  intro other more heq
  have hget : (prefixes other)[chain.length]? = some path := by
    rw [← heq, append_assoc, getElem?_append_right (by simp)]
    simp
  have hlength := length_of_getElem?_prefixes hget
  omega

/-! ### Places of a chain -/

def Command.growing (chain : ElementPath) : Command where
  stack := chain.dropLast.map (⟨·, 1⟩) ++ chain.getLast?.toList.map (⟨·, 0⟩)
  rootSeen := !chain.isEmpty
  elementCount := chain.length
  leafPath := none

/-- The chain has been read to its leaf, and its first `k` elements are still open. -/
def Command.closing (chain : ElementPath) (k : ℕ) : Command where
  stack := (chain.take k).map (⟨·, 1⟩)
  rootSeen := true
  elementCount := chain.length
  leafPath := some chain

/-- Both machines are at the same place of a chain. -/
inductive Aligned : Command → Walk (List ElementPath) → Prop
  | growing (chain : ElementPath) :
      Aligned (.growing chain) ⟨chain, chain.length, prefixes chain⟩
  | closing (chain : ElementPath) (k : ℕ) (hk : k < chain.length) :
      Aligned (.closing chain k) ⟨chain.take k, chain.length, prefixes chain⟩

theorem Command.growing_snoc_stack (chain : ElementPath) (name : Text) :
    (Command.growing (chain ++ [name])).stack = chain.map (⟨·, 1⟩) ++ [⟨name, 0⟩] := by
  simp [Command.growing]

theorem Command.length_growing_stack (chain : ElementPath) :
    (Command.growing chain).stack.length = chain.length := by
  induction chain using List.reverseRecOn with
  | nil => rfl
  | append_singleton chain name _ => rw [Command.growing_snoc_stack]; simp

theorem Command.openElement_growing (chain : ElementPath) :
    (Command.growing chain).openElement =
      if maxDepth ≤ chain.length then .error .tooDeep
      else if maxElements < chain.length + 1 then .error .tooLarge
      else .ok ⟨chain.map (⟨·, 1⟩), true, chain.length + 1, none⟩ := by
  rw [Command.openElement, Command.length_growing_stack]
  by_cases hdepth : maxDepth ≤ chain.length
  · rw [if_pos hdepth, if_pos hdepth]
    rfl
  · rw [if_neg hdepth, if_neg hdepth]
    induction chain using List.reverseRecOn with
    | nil => rfl
    | append_singleton chain name _ =>
      have hstack := Command.growing_snoc_stack chain name
      rw [hstack, getLast?_concat]
      simp only [dropLast_concat, Command.growing, Nat.lt_irrefl, Nat.zero_add, if_false]
      by_cases hlarge : maxElements < (chain ++ [name]).length + 1
      · rw [if_pos hlarge]
        simp only [pure_bind, if_pos hlarge]
        rfl
      · rw [if_neg hlarge]
        simp only [pure_bind, if_neg hlarge]
        simp [pure, Except.pure]

theorem Command.openElement_closing (chain : ElementPath) (k : ℕ) :
    ∃ e, (Command.closing chain k).openElement = .error e := by
  rw [Command.openElement]
  by_cases hdepth : maxDepth ≤ (Command.closing chain k).stack.length
  · rw [if_pos hdepth]
    exact ⟨_, rfl⟩
  · rw [if_neg hdepth]
    cases hlast : (Command.closing chain k).stack.getLast? with
    | none => exact ⟨_, rfl⟩
    | some parent =>
      have hmem : parent ∈ (chain.take k).map (⟨·, 1⟩ : Text → Frame) := mem_of_getLast? hlast
      obtain ⟨name, -, rfl⟩ := mem_map.mp hmem
      exact ⟨_, rfl⟩

/-- What `Start` and `Empty` have in common. -/
def Command.admitElement (c : Command) (name : Text) (attrs : Except Text Unit) :
    Except XmlPathError (Command × Text) := do
  validateAttrs attrs
  let c ← c.openElement
  let name ← localName name
  return (c, name)

theorem Command.step_start (c : Command) (name : Text) (attrs : Except Text Unit) :
    c.step (.start name attrs) = (c.admitElement name attrs).map fun opened =>
      { opened.1 with stack := opened.1.stack ++ [⟨opened.2, 0⟩] } := by
  rw [Command.step, Command.admitElement]
  cases validateAttrs attrs with
  | error => rfl
  | ok =>
    cases c.openElement with
    | error => rfl
    | ok c => cases localName name <;> rfl

theorem Command.step_empty (c : Command) (name : Text) (attrs : Except Text Unit) :
    c.step (.empty name attrs) =
      (c.admitElement name attrs).bind fun opened => opened.1.recordIfLeaf 0 opened.2 := by
  rw [Command.step, Command.admitElement]
  cases validateAttrs attrs with
  | error => rfl
  | ok =>
    cases c.openElement with
    | error => rfl
    | ok c => cases localName name <;> rfl

theorem Command.admitElement_growing_ok {name' : Text}
    (h : checkElement chain.length chain.length name attrs = .ok name') :
    (Command.growing chain).admitElement name attrs =
      .ok (⟨chain.map (⟨·, 1⟩), true, chain.length + 1, none⟩, name') := by
  obtain ⟨hdepth, rfl, hlarge, hname⟩ := checkElement_ok.mp h
  rw [Command.admitElement, Command.openElement_growing, if_neg (by omega), if_neg (by omega), hname]
  rfl

theorem Command.admitElement_growing_error
    (h : checkElement chain.length chain.length name attrs = .error e) :
    ∃ e', (Command.growing chain).admitElement name attrs = .error e' := by
  cases hopened : (Command.growing chain).admitElement name attrs with
  | error e' => exact ⟨e', rfl⟩
  | ok opened =>
    -- what is admitted has passed every check, so the walk accepts it too
    rw [Command.admitElement, Command.openElement_growing] at hopened
    cases attrs with
    | error => cases hopened
    | ok =>
      split_ifs at hopened with hdepth hlarge
      · cases hopened
      · cases hopened
      · cases hname : localName name with
        | error => rw [hname] at hopened; cases hopened
        | ok name' =>
          have hok := checkElement_ok.mpr
            ⟨Nat.not_le.mp hdepth, rfl, Nat.lt_of_succ_le (Nat.not_lt.mp hlarge), hname⟩
          rw [hok] at h
          cases h

theorem Command.admitElement_closing (chain : ElementPath) (k : ℕ) (name : Text)
    (attrs : Except Text Unit) : ∃ e, (Command.closing chain k).admitElement name attrs = .error e := by
  obtain ⟨e, hopen⟩ := Command.openElement_closing chain k
  rw [Command.admitElement, hopen]
  cases attrs <;> exact ⟨_, rfl⟩

/-! ### One event -/

abbrev Walk.next (walk : Walk (List ElementPath)) (event : XmlEvent) :
    Except XmlPathError (Walk (List ElementPath)) :=
  walk.step (fun paths path => paths ++ [path]) event

/-- What one event does to both machines: they stay aligned, or the command is refused and the walk
fails or has met a branch. -/
def StepAgrees (c : Command) (walk : Walk (List ElementPath)) (event : XmlEvent) : Prop :=
  (∃ c' walk', c.step event = .ok c' ∧ walk.next event = .ok walk' ∧ Aligned c' walk') ∨
    (∃ e, c.step event = .error e) ∧ ∀ walk', walk.next event = .ok walk' → Branched walk'.kept

theorem stepAgrees_of_error
    {e' : XmlPathError} (hc : c.step event = .error e) (hwalk : walk.next event = .error e') :
    StepAgrees c walk event :=
  Or.inr ⟨⟨e, hc⟩, fun walk' h => by rw [hwalk] at h; cases h⟩

theorem growing_start (chain : ElementPath) (name : Text) (attrs : Except Text Unit) :
    StepAgrees (.growing chain) ⟨chain, chain.length, prefixes chain⟩ (.start name attrs) := by
  have hwalk := Walk.push_eq (fun paths path => paths ++ [path])
    ⟨chain, chain.length, prefixes chain⟩ name attrs
  have hcommand := Command.step_start (.growing chain) name attrs
  cases hcheck : checkElement chain.length chain.length name attrs with
  | error e =>
    obtain ⟨e', hopened⟩ := Command.admitElement_growing_error hcheck
    simp only [hcheck] at hwalk
    rw [hopened] at hcommand
    exact stepAgrees_of_error hcommand hwalk
  | ok name' =>
    rw [Command.admitElement_growing_ok hcheck] at hcommand
    simp only [hcheck] at hwalk
    refine Or.inl ⟨_, _, hcommand, hwalk, ?_⟩
    have haligned := Aligned.growing (chain ++ [name'])
    rw [prefixes_snoc, length_append, length_singleton] at haligned
    convert haligned using 1
    simp [Command.growing]

theorem growing_empty (chain : ElementPath) (name : Text) (attrs : Except Text Unit) :
    StepAgrees (.growing chain) ⟨chain, chain.length, prefixes chain⟩ (.empty name attrs) := by
  have hpush := Walk.push_eq (fun paths path => paths ++ [path])
    ⟨chain, chain.length, prefixes chain⟩ name attrs
  have hcommand := Command.step_empty (.growing chain) name attrs
  cases hcheck : checkElement chain.length chain.length name attrs with
  | error e =>
    obtain ⟨e', hopened⟩ := Command.admitElement_growing_error hcheck
    simp only [hcheck] at hpush
    rw [hopened] at hcommand
    have hwalk : Walk.next ⟨chain, chain.length, prefixes chain⟩ (.empty name attrs) = .error e := by
      rw [Walk.next, Walk.step, hpush]
      rfl
    exact stepAgrees_of_error hcommand hwalk
  | ok name' =>
    rw [Command.admitElement_growing_ok hcheck] at hcommand
    simp only [hcheck] at hpush
    refine Or.inl ⟨.closing (chain ++ [name']) chain.length,
      ⟨chain, chain.length + 1, prefixes chain ++ [chain ++ [name']]⟩, ?_, ?_, ?_⟩
    · rw [hcommand]
      simp [Command.recordIfLeaf, Command.closing, Except.bind, pure, Except.pure,
        Function.comp_def]
    · rw [Walk.next, Walk.step, hpush]
      simp [Except.map, bind, Except.bind, pure, Except.pure]
    · have haligned := Aligned.closing (chain ++ [name']) chain.length (by simp)
      rw [prefixes_snoc, length_append, length_singleton, take_left] at haligned
      exact haligned

theorem growing_end (chain : ElementPath) :
    StepAgrees (.growing chain) ⟨chain, chain.length, prefixes chain⟩ .end := by
  induction chain using List.reverseRecOn with
  | nil => exact stepAgrees_of_error rfl rfl
  | append_singleton chain name _ =>
    refine Or.inl ⟨.closing (chain ++ [name]) chain.length,
      ⟨chain, (chain ++ [name]).length, prefixes (chain ++ [name])⟩, ?_, ?_, ?_⟩
    · rw [Command.step, Command.growing_snoc_stack, getLast?_concat]
      simp [Command.recordIfLeaf, Command.closing, Command.growing, pure, Except.pure,
        Function.comp_def]
    · rw [Walk.next, Walk.step]
      simp [pure, Except.pure]
    · have haligned := Aligned.closing (chain ++ [name]) chain.length (by simp)
      rw [take_left] at haligned
      exact haligned

theorem closing_element (hk : k < chain.length) (name : Text) (attrs : Except Text Unit)
    (hevent : event = .start name attrs ∨ event = .empty name attrs) :
    StepAgrees (.closing chain k) ⟨chain.take k, chain.length, prefixes chain⟩ event := by
  obtain ⟨e, hopened⟩ := Command.admitElement_closing chain k name attrs
  have hbranched (name' : Text) : Branched (prefixes chain ++ [chain.take k ++ [name']]) := by
    apply branched_snoc
    rw [length_append, length_take, length_singleton]
    omega
  refine Or.inr ⟨⟨e, ?_⟩, fun walk' hwalk => ?_⟩
  · rcases hevent with rfl | rfl
    · rw [Command.step_start, hopened]
      rfl
    · rw [Command.step_empty, hopened]
      rfl
  · rcases hevent with rfl | rfl
    · rw [Walk.next, Walk.step] at hwalk
      obtain ⟨-, rfl⟩ := Walk.push_ok hwalk
      exact hbranched name
    · rw [Walk.next, Walk.step] at hwalk
      cases hpush : Walk.push (fun paths path => paths ++ [path])
          ⟨chain.take k, chain.length, prefixes chain⟩ name attrs with
      | error => rw [hpush] at hwalk; cases hwalk
      | ok pushed =>
        rw [hpush] at hwalk
        cases hwalk
        obtain ⟨-, rfl⟩ := Walk.push_ok hpush
        exact hbranched name

theorem closing_end (hk : k < chain.length) :
    StepAgrees (.closing chain k) ⟨chain.take k, chain.length, prefixes chain⟩ .end := by
  cases k with
  | zero => exact stepAgrees_of_error rfl rfl
  | succ k =>
    have htake : chain.take (k + 1) = chain.take k ++ [chain[k]] := take_succ_eq_append_getElem _
    refine Or.inl ⟨.closing chain k, ⟨chain.take k, chain.length, prefixes chain⟩, ?_, ?_,
      .closing chain k (by omega)⟩
    · have hstack : (Command.closing chain (k + 1)).stack =
          (chain.take k).map (⟨·, 1⟩) ++ [⟨chain[k], 1⟩] := by
        rw [Command.closing, htake, map_append, map_singleton]
      rw [Command.step, hstack, getLast?_concat, dropLast_concat]
      rfl
    · have hopen : ¬ (chain.take k ++ [chain[k]]).isEmpty = true := by
        rw [List.isEmpty_iff]
        exact append_ne_nil_of_right_ne_nil _ (cons_ne_nil _ _)
      rw [htake, Walk.next, Walk.step, if_neg hopen, dropLast_concat]
      rfl

theorem Aligned.step (h : Aligned c walk) (event : XmlEvent) : StepAgrees c walk event := by
  cases event with
  | start name attrs =>
    cases h with
    | growing chain => exact growing_start chain name attrs
    | closing chain k hk => exact closing_element hk name attrs (Or.inl rfl)
  | empty name attrs =>
    cases h with
    | growing chain => exact growing_empty chain name attrs
    | closing chain k hk => exact closing_element hk name attrs (Or.inr rfl)
  | «end» =>
    cases h with
    | growing chain => exact growing_end chain
    | closing chain k hk => exact closing_end hk
  | docType => exact stepAgrees_of_error rfl rfl
  | generalRef charRef predefined =>
    cases href : rejectNonPredefinedRef charRef predefined with
    | error e =>
      have hcommand : c.step (.generalRef charRef predefined) = .error e := by
        rw [Command.step, href]
        rfl
      have hwalk : walk.next (.generalRef charRef predefined) = .error e := by
        rw [Walk.next, Walk.step, href]
        rfl
      exact stepAgrees_of_error hcommand hwalk
    | ok =>
      refine Or.inl ⟨c, walk, ?_, ?_, h⟩
      · rw [Command.step, href]
        rfl
      · rw [Walk.next, Walk.step, href]
        rfl
  | other => exact Or.inl ⟨c, walk, rfl, rfl, h⟩
  | failed message => exact stepAgrees_of_error rfl rfl

/-! ### Whole documents -/

theorem Walk.next_kept {walk' : Walk (List ElementPath)}
    (h : walk.next event = .ok walk') : ∃ more, walk'.kept = walk.kept ++ more := by
  cases event with
  | start name attrs =>
    rw [Walk.next, Walk.step] at h
    obtain ⟨-, rfl⟩ := Walk.push_ok h
    exact ⟨_, rfl⟩
  | empty name attrs =>
    rw [Walk.next, Walk.step] at h
    cases hpush : walk.push (fun paths path => paths ++ [path]) name attrs with
    | error => rw [hpush] at h; cases h
    | ok pushed =>
      rw [hpush] at h
      cases h
      obtain ⟨-, rfl⟩ := Walk.push_ok hpush
      exact ⟨_, rfl⟩
  | «end» =>
    rw [Walk.next, Walk.step] at h
    split_ifs at h
    cases h
    exact ⟨[], (append_nil _).symm⟩
  | docType => cases h
  | generalRef charRef predefined =>
    rw [Walk.next, Walk.step] at h
    cases href : rejectNonPredefinedRef charRef predefined with
    | error => rw [href] at h; cases h
    | ok => rw [href] at h; cases h; exact ⟨[], (append_nil _).symm⟩
  | other => cases h; exact ⟨[], (append_nil _).symm⟩
  | failed message => cases h

def Walk.rest (walk : Walk (List ElementPath)) (events : List XmlEvent) :
    Except XmlPathError (List ElementPath) :=
  events.foldlM Walk.next walk >>= Walk.finish

def Command.rest (c : Command) (events : List XmlEvent) : Except XmlPathError Text :=
  events.foldlM Command.step c >>= Command.finish

theorem Walk.rest_branched (h : Branched walk.kept)
    (events : List XmlEvent) (chain : ElementPath) : walk.rest events ≠ .ok (prefixes chain) := by
  induction events generalizing walk with
  | nil =>
    intro hrest
    change walk.finish = .ok _ at hrest
    rw [Walk.finish] at hrest
    split_ifs at hrest
    have hkept : walk.kept = prefixes chain := Except.ok.inj hrest
    exact h chain [] (by rw [append_nil, hkept])
  | cons event events ih =>
    intro hrest
    rw [Walk.rest, foldlM_cons] at hrest
    cases hnext : walk.next event with
    | error => rw [hnext] at hrest; cases hrest
    | ok walk' =>
      obtain ⟨more, hkept⟩ := Walk.next_kept hnext
      rw [hnext] at hrest
      have hbranched : Branched walk'.kept := by
        intro other behind heq
        rw [hkept, append_assoc] at heq
        exact h other (more ++ behind) heq
      exact ih hbranched hrest

theorem Aligned.finish (h : Aligned c walk) (s : Text) : c.finish = .ok s ↔
      ∃ chain, chain ≠ [] ∧ walk.finish = .ok (prefixes chain) ∧ s = pathString chain := by
  cases h with
  | growing chain =>
    -- nothing has been read, or an element is still open
    induction chain using List.reverseRecOn with
    | nil => exact iff_of_false nofun fun ⟨_, _, hfinish, _⟩ => by cases hfinish
    | append_singleton chain name _ =>
      have hstack := Command.growing_snoc_stack chain name
      refine iff_of_false ?_ ?_
      · rw [Command.finish, hstack, if_pos (by simp)]
        nofun
      · rintro ⟨_, _, hfinish, _⟩
        rw [Walk.finish, if_pos (by simp)] at hfinish
        cases hfinish
  | closing chain k hk =>
    have hne : chain ≠ [] := ne_nil_of_length_pos (by omega)
    cases k with
    | zero =>
      have hcount : chain.length ≠ 0 := by omega
      have hfinish : Walk.finish ⟨chain.take 0, chain.length, prefixes chain⟩ =
          .ok (prefixes chain) := by
        rw [Walk.finish, if_neg (by simp), if_neg hcount]
        rfl
      have hcommand : (Command.closing chain 0).finish = .ok (pathString chain) := rfl
      rw [hfinish, hcommand]
      constructor
      · intro hs
        exact ⟨chain, hne, rfl, (Except.ok.inj hs).symm⟩
      · rintro ⟨other, -, heq, rfl⟩
        rw [prefixes_injective (Except.ok.inj heq)]
    | succ k =>
      have hopen : chain.take (k + 1) ≠ [] := by
        rw [Ne, take_eq_nil_iff]
        simp [hne]
      refine iff_of_false ?_ ?_
      · rw [Command.finish, if_pos (by simpa [Command.closing] using hne)]
        nofun
      · rintro ⟨_, _, hfinish, _⟩
        rw [Walk.finish, if_pos (by simpa using hne)] at hfinish
        cases hfinish

theorem Aligned.rest (h : Aligned c walk)
    (events : List XmlEvent) (s : Text) : c.rest events = .ok s ↔
      ∃ chain, chain ≠ [] ∧ walk.rest events = .ok (prefixes chain) ∧ s = pathString chain := by
  induction events generalizing c walk with
  | nil => exact h.finish s
  | cons event events ih =>
    rw [Command.rest, Walk.rest, foldlM_cons, foldlM_cons]
    rcases h.step event with ⟨c', walk', hc, hwalk, haligned⟩ | ⟨⟨e, hc⟩, hbranch⟩
    · rw [hc, hwalk]
      exact ih haligned
    · rw [hc]
      refine iff_of_false nofun ?_
      rintro ⟨chain, -, hrest, -⟩
      cases hnext : walk.next event with
      | error => rw [hnext] at hrest; cases hrest
      | ok walk' =>
        rw [hnext] at hrest
        exact Walk.rest_branched (hbranch walk' hnext) events chain hrest

theorem canonicalCommandPath_iff (events : List XmlEvent) (s : Text) :
    canonicalCommandPath events = .ok s ↔ ∃ chain, chain ≠ [] ∧
      elementPaths events = .ok (prefixes chain) ∧ s = pathString chain :=
  (Aligned.growing []).rest events s

/-- **The canonical path names the command and nothing else.**  It is given exactly for documents
whose element paths are one chain, prefix by prefix, and is then the joined chain; different chains
give different texts. -/
theorem canonical_command_path_names_chain :
    (∀ (events : List XmlEvent) (s : Text), canonicalCommandPath events = .ok s ↔
      ∃ chain, chain ≠ [] ∧ elementPaths events = .ok (prefixes chain) ∧ s = pathString chain) ∧
    ∀ (events events' : List XmlEvent) (s s' : Text) (chain chain' : ElementPath),
      canonicalCommandPath events = .ok s → canonicalCommandPath events' = .ok s' →
      elementPaths events = .ok (prefixes chain) → elementPaths events' = .ok (prefixes chain') →
      chain ≠ chain' → s ≠ s' := by
  refine ⟨canonicalCommandPath_iff, ?_⟩
  intro events events' s s' chain chain' hs hs' hpaths hpaths' hne heq
  have hread {events : List XmlEvent} {s : Text} {chain : ElementPath}
      (hs : canonicalCommandPath events = .ok s) (hpaths : elementPaths events = .ok (prefixes chain)) :
      chain ≠ [] ∧ (∀ name ∈ chain, ValidName name) ∧ s = pathString chain := by
    obtain ⟨read, hread, hok, hstring⟩ := (canonicalCommandPath_iff events s).mp hs
    have hchain : read = chain := prefixes_injective (Except.ok.inj (hok.symm.trans hpaths))
    subst hchain
    have hmem : read ∈ prefixes read := mem_prefixes.mpr ⟨hread, prefix_rfl⟩
    exact ⟨hread, (documentOrder_elementPaths hpaths).names read hmem, hstring⟩
  obtain ⟨hchain, hnames, rfl⟩ := hread hs hpaths
  obtain ⟨hchain', hnames', rfl⟩ := hread hs' hpaths'
  exact hne (pathString_injective hchain hchain' hnames hnames' heq)

end Mecmcp.Policy
