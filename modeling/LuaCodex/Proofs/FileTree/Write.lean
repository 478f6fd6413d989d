import LuaCodex.FileTree

/-!
This module contains what is found in a file system after a file has been written: the file holds
its new content, and what has led somewhere else still leads there. A file can be written into any
directory unless a directory stands in its place.
-/

namespace LuaCodex
namespace FileTree

variable {t t' : FileTree} {here there location : Location} {node node' : Node}
variable {segment : List Char} {segments front back : List (List Char)}

theorem lookup_filter_ne (h : here ≠ location) (entries : List (Location × Node)) :
    (entries.filter (·.1 ≠ location)).lookup here = entries.lookup here := by
  induction entries with
  | nil => rfl
  | cons entry entries ih =>
    by_cases hentry : entry.1 = location
    · rw [List.filter_cons_of_neg (by simpa using hentry), ih, List.lookup_cons]
      have hne : (here == entry.1) = false := by simpa [hentry] using h
      rw [hne]
    · rw [List.filter_cons_of_pos (by simpa using hentry), List.lookup_cons, List.lookup_cons, ih]

theorem lookup_filter_self (location : Location) (entries : List (Location × Node)) :
    (entries.filter (·.1 ≠ location)).lookup location = none := by
  rw [List.lookup_eq_none_iff]
  intro entry hentry
  have hne : entry.1 ≠ location := by simpa using (List.mem_filter.1 hentry).2
  simpa using hne.symm

@[simp]
theorem node?_nil : t.node? [] = some .directory := by
  simp [node?]

theorem node?_put_of_ne (h : here ≠ location) :
    (t.put location node).node? here = t.node? here := by
  unfold node? put
  have hlast : List.lookup here [(location, node)] = none := by simpa using h
  rw [List.lookup_append, lookup_filter_ne h, hlast, Option.or_none]

theorem node?_put_self (h : location ≠ []) :
    (t.put location node).node? location = some node := by
  unfold node? put
  rw [List.lookup_append, lookup_filter_self]
  simp [h]

theorem follow_nil_eq_ok_iff : t.follow here [] = .ok (there, node)
    ↔ there = here ∧ t.node? here = some node := by
  unfold follow
  cases t.node? here <;> simp [eq_comm]

theorem follow_cons_eq_ok_iff {r : Location × Node} : t.follow here (segment :: segments) = .ok r
    ↔ t.node? here = some .directory ∧ t.follow (descend here segment) segments = .ok r := by
  rw [follow]
  split <;> simp_all

theorem node?_of_follow (h : t.follow here segments = .ok (there, node)) :
    t.node? there = some node := by
  induction segments generalizing here with
  | nil =>
    obtain ⟨rfl, hnode⟩ := follow_nil_eq_ok_iff.1 h
    exact hnode
  | cons segment segments ih => exact ih (follow_cons_eq_ok_iff.1 h).2

theorem isSome_node?_of_follow {r : Location × Node} (h : t.follow here segments = .ok r) :
    (t.node? here).isSome = true := by
  cases segments with
  | nil => rw [(follow_nil_eq_ok_iff.1 h).2]; rfl
  | cons segment segments => rw [(follow_cons_eq_ok_iff.1 h).1]; rfl

theorem follow_append_cons (h : t.follow here front = .ok (there, .directory)) :
    t.follow here (front ++ segment :: back) = t.follow (descend there segment) back := by
  induction front generalizing here with
  | nil =>
    obtain ⟨rfl, hnode⟩ := follow_nil_eq_ok_iff.1 h
    rw [List.nil_append, follow, hnode]
  | cons name front ih =>
    obtain ⟨hnode, hfront⟩ := follow_cons_eq_ok_iff.1 h
    rw [List.cons_append, follow, hnode]
    exact ih hfront

theorem exists_follow_of_append_cons {r : Location × Node}
    (h : t.follow here (front ++ segment :: back) = .ok r) :
    ∃ there, t.follow here front = .ok (there, .directory) := by
  induction front generalizing here with
  | nil =>
    rw [List.nil_append, follow_cons_eq_ok_iff] at h
    exact ⟨here, follow_nil_eq_ok_iff.2 ⟨rfl, h.1⟩⟩
  | cons name front ih =>
    rw [List.cons_append, follow_cons_eq_ok_iff] at h
    obtain ⟨there, hthere⟩ := ih h.2
    exact ⟨there, follow_cons_eq_ok_iff.2 ⟨h.1, hthere⟩⟩

theorem follow_put (hlocation : t.node? location ≠ some .directory)
    (h : t.follow here segments = .ok (there, node)) :
    (t.put location node').follow here segments
      =
    .ok (there, if there = location then node' else node) := by
  induction segments generalizing here with
  | nil =>
    obtain ⟨rfl, hnode⟩ := follow_nil_eq_ok_iff.1 h
    rw [follow_nil_eq_ok_iff]
    refine ⟨rfl, ?_⟩
    split
    · next heq =>
      subst heq
      apply node?_put_self
      rintro rfl
      simp at hlocation
    · next hne => rw [node?_put_of_ne hne, hnode]
  | cons segment segments ih =>
    obtain ⟨hnode, hrest⟩ := follow_cons_eq_ok_iff.1 h
    have hne : here ≠ location := by
      rintro rfl
      exact hlocation hnode
    rw [follow_cons_eq_ok_iff, node?_put_of_ne hne]
    exact ⟨hnode, ih hrest⟩

/--
A path ends in the name of an entry, which stands behind some other segments.
-/
structure EndsIn (p : Path) (front : List (List Char)) (name : List Char) : Prop where
  segments : p.segments = front ++ [name]
  ne_nil : name ≠ []
  ne_current : name ≠ ['.']
  ne_above : name ≠ ['.', '.']

variable {p : Path} {name : List Char} {content : List UInt8}

theorem EndsIn.text_ne (h : EndsIn p front name) : p.text ≠ "" := by
  intro hempty
  have hsegments := h.segments
  rw [Path.segments, hempty, String.toList_empty, List.splitOn_nil] at hsegments
  have hlast := congrArg List.getLast? hsegments
  rw [List.getLast?_concat, List.getLast?_singleton, Option.some_inj] at hlast
  exact h.ne_nil hlast.symm

theorem EndsIn.resolve (h : EndsIn p front name) :
    t.resolve p = t.follow (t.origin p) (front ++ [name]) := by
  unfold FileTree.resolve
  rw [if_neg h.text_ne, h.segments]

theorem EndsIn.descend (h : EndsIn p front name) :
    descend here name = here ++ [String.ofList name] := by
  unfold FileTree.descend
  simp [h.ne_nil, h.ne_current, h.ne_above]

theorem EndsIn.splitLast (h : EndsIn p front name) : splitLast p = (front, name) := by
  unfold FileTree.splitLast
  rw [h.segments, List.reverse_append, List.reverse_singleton, List.singleton_append,
    List.dropWhile_cons_of_neg (by simpa using h.ne_nil)]
  simp

theorem EndsIn.resolve_of_follow (h : EndsIn p front name)
    (hfront : t.follow (t.origin p) front = .ok (here, .directory)) :
    t.resolve p = t.follow (here ++ [String.ofList name]) [] := by
  rw [h.resolve, follow_append_cons hfront, h.descend]

theorem follow_nil_eq_error_iff {e : AccessError} : t.follow here [] = .error e
    ↔ t.node? here = none ∧ e = .notFound := by
  unfold follow
  cases t.node? here <;> simp [eq_comm]

theorem read_eq_ok_iff :
    t.read p = .ok content
      ↔
    ∃ there, t.resolve p = .ok (there, .file content) ∧ t.refusal? there = none := by
  unfold read
  cases hresolve : t.resolve p with
  | error e => simp [bind, Except.bind]
  | ok r =>
    obtain ⟨there, node⟩ := r
    cases hrefusal : t.refusal? there with
    | some e => simp [hrefusal, bind, Except.bind]
    | none =>
      cases node with
      | directory => simp [hrefusal, bind, Except.bind]
      | file found =>
        simp only [hrefusal, bind, Except.bind, pure, Except.pure, Except.ok.injEq, Prod.mk.injEq,
          Node.file.injEq]
        constructor
        · rintro rfl
          exact ⟨there, ⟨rfl, rfl⟩, hrefusal⟩
        · rintro ⟨-, ⟨-, rfl⟩, -⟩
          rfl

theorem exists_put_of_write (h : EndsIn p front name) (hwrite : t.write p content = .ok t') :
    ∃ location, t' = t.put location (.file content)
      ∧ ((∃ old, t.resolve p = .ok (location, .file old))
        ∨ t.node? location = none
          ∧ ∃ here, t.follow (t.origin p) front = .ok (here, .directory)
            ∧ location = here ++ [String.ofList name]) := by
  unfold write at hwrite
  split at hwrite
  · next location old hresolve =>
    cases hwrite
    exact ⟨location, rfl, Or.inl ⟨old, hresolve⟩⟩
  · contradiction
  · next e hresolve =>
    simp only [h.splitLast] at hwrite
    cases hfront : t.follow (t.origin p) front with
    | error e' => simp [hfront, bind, Except.bind] at hwrite
    | ok r =>
      obtain ⟨here, node⟩ := r
      cases node with
      | file => simp [hfront, bind, Except.bind] at hwrite
      | directory =>
        simp only [hfront, bind, Except.bind] at hwrite
        split at hwrite
        · cases hwrite
          rw [h.resolve_of_follow hfront] at hresolve
          refine ⟨here ++ [String.ofList name], rfl, Or.inr ⟨?_, here, rfl, rfl⟩⟩
          exact (follow_nil_eq_error_iff.1 hresolve).1
        · contradiction

theorem exists_resolve_of_write (h : EndsIn p front name) (hwrite : t.write p content = .ok t') :
    ∃ location, t' = t.put location (.file content)
      ∧ t'.resolve p = .ok (location, .file content) := by
  obtain ⟨location, rfl, hplace⟩ := exists_put_of_write h hwrite
  have horigin : (t.put location (.file content)).origin p = t.origin p := rfl
  refine ⟨location, rfl, ?_⟩
  rcases hplace with ⟨old, hresolve⟩ | ⟨hnode, here, hfront, rfl⟩
  · have hlocation : t.node? location ≠ some .directory := by
      rw [h.resolve] at hresolve
      rw [node?_of_follow hresolve]
      simp
    rw [h.resolve] at hresolve ⊢
    rw [horigin, follow_put hlocation hresolve, if_pos rfl]
  · -- The directory is still there, and now it has the file.
    have hput : (t.put (here ++ [String.ofList name]) (.file content)).follow (t.origin p) front
        = .ok (here, .directory) := by
      rw [follow_put (by simp [hnode]) hfront, if_neg (by simp)]
    rw [h.resolve_of_follow hput, follow_nil_eq_ok_iff]
    exact ⟨rfl, node?_put_self (by simp)⟩

theorem exists_write_of_follow (h : EndsIn p front name)
    (hfront : t.follow (t.origin p) front = .ok (here, .directory))
    (hfree : t.isDirectory p = false) (content : List UInt8) :
    ∃ t', t.write p content = .ok t' := by
  have hlast : p.segments.getLast? = some name := by
    rw [h.segments, List.getLast?_concat]
  unfold write
  unfold isDirectory at hfree
  split
  · exact ⟨_, rfl⟩
  · next hresolve => simp [hresolve] at hfree
  · next e hresolve =>
    rw [h.resolve_of_follow hfront, follow_nil_eq_error_iff] at hresolve
    simp [h.splitLast, hfront, hlast, hresolve.2, bind, Except.bind, pure, Except.pure]

theorem isDirectory_iff :
    t.isDirectory p = true ↔ ∃ there, t.resolve p = .ok (there, .directory) := by
  unfold isDirectory
  split
  · next there hresolve => simp [hresolve]
  · next hresolve =>
    constructor
    · intro h
      contradiction
    · rintro ⟨there, hthere⟩
      exact absurd hthere (hresolve there)

theorem exists_follow_of_isDirectory (h : t.isDirectory p = true) :
    p.text ≠ "" ∧ ∃ there, t.follow (t.origin p) p.segments = .ok (there, .directory) := by
  obtain ⟨there, hresolve⟩ := isDirectory_iff.1 h
  unfold resolve at hresolve
  split at hresolve
  · contradiction
  · next hne => exact ⟨hne, there, hresolve⟩

theorem text_join (base : Path) {name : String} (hslash : '/' ∉ name.toList) :
    base.text = "" ∧ (base.join name).text = name
      ∨ (∃ start, base.text.toList = start ++ ['/']
        ∧ (base.join name).text.toList = start ++ '/' :: name.toList)
      ∨ base.text ≠ "" ∧ (base.join name).text.toList = base.text.toList ++ '/' :: name.toList := by
  have hrelative : name.toList.head? ≠ some '/' := by
    intro hhead
    exact hslash (List.mem_of_head? hhead)
  unfold Path.join
  rw [if_neg hrelative]
  cases hlast : base.text.toList.getLast? with
  | none =>
    have hempty : base.text = "" := by simpa using hlast
    exact Or.inl ⟨hempty, by simp [hempty]⟩
  | some c =>
    by_cases hc : c = '/'
    · subst hc
      obtain ⟨start, hstart⟩ := List.getLast?_eq_some_iff.1 hlast
      refine Or.inr (Or.inl ⟨start, hstart, ?_⟩)
      simp [hstart]
    · refine Or.inr (Or.inr ⟨?_, ?_⟩)
      · intro hempty
        simp [hempty] at hlast
      · simp [hc]

theorem segments_eq_of_text {start : List Char} {name : String} (hslash : '/' ∉ name.toList)
    (h : p.text.toList = start ++ '/' :: name.toList) :
    p.segments = start.splitOn '/' ++ [name.toList] := by
  rw [Path.segments, h, List.splitOn_append_cons_self, List.splitOn_eq_singleton hslash]

theorem exists_endsIn_join (base : Path) {name : String} (hslash : '/' ∉ name.toList)
    (hname : name.toList ∉ [[], ['.'], ['.', '.']]) :
    ∃ front, EndsIn (base.join name) front name.toList := by
  have hsegments : ∃ front, (base.join name).segments = front ++ [name.toList] := by
    rcases text_join base hslash with ⟨-, h⟩ | ⟨start, -, h⟩ | ⟨-, h⟩
    · refine ⟨[], ?_⟩
      rw [Path.segments, h, List.splitOn_eq_singleton hslash]
      rfl
    · exact ⟨_, segments_eq_of_text hslash h⟩
    · exact ⟨_, segments_eq_of_text hslash h⟩
  obtain ⟨front, hfront⟩ := hsegments
  simp only [List.mem_cons, List.not_mem_nil, or_false, not_or] at hname
  exact ⟨front, hfront, hname.1, hname.2.1, hname.2.2⟩

theorem origin_of_append {p' : Path} {rest : List Char} (hne : p.text ≠ "")
    (h : p'.text.toList = p.text.toList ++ rest) : t.origin p' = t.origin p := by
  have htext : p.text.toList ≠ [] := by simpa using hne
  unfold origin Path.isAbsolute
  rw [h, List.head?_append, List.head?_eq_some_head htext, Option.some_or]

theorem exists_follow_join {base : Path} {name : String} (hbase : t.isDirectory base = true)
    (hslash : '/' ∉ name.toList) (h : EndsIn (base.join name) front name.toList) :
    ∃ here, t.follow (t.origin (base.join name)) front = .ok (here, .directory) := by
  obtain ⟨hne, there, hthere⟩ := exists_follow_of_isDirectory hbase
  have hfront : ∀ start, (base.join name).text.toList = start ++ '/' :: name.toList →
      front = start.splitOn '/' := by
    intro start hstart
    have hsegments := segments_eq_of_text hslash hstart
    rw [h.segments] at hsegments
    exact List.append_cancel_right hsegments
  rcases text_join base hslash with ⟨hempty, -⟩ | ⟨start, hstart, hjoin⟩ | ⟨-, hjoin⟩
  · contradiction
  · -- The slash at the end of the base is followed by an empty segment, which leads nowhere else.
    have hsegments : base.segments = start.splitOn '/' ++ [[]] := by
      rw [Path.segments, hstart, List.splitOn_append_cons_self, List.splitOn_nil]
    have happend : (base.join name).text.toList = base.text.toList ++ name.toList := by
      rw [hjoin, hstart, List.append_assoc, List.singleton_append]
    rw [hsegments] at hthere
    rw [hfront start hjoin, origin_of_append hne happend]
    exact exists_follow_of_append_cons hthere
  · rw [hfront _ hjoin, origin_of_append hne hjoin]
    exact ⟨there, hthere⟩

theorem exists_segments_of_splitLast (p : Path) :
    splitLast p = ([], []) ∨ ∃ back, p.segments = (splitLast p).1 ++ (splitLast p).2 :: back := by
  have hcut := List.takeWhile_append_dropWhile (p := (· = [])) (l := p.segments.reverse)
  have hsegments : p.segments = (p.segments.reverse.dropWhile (· = [])).reverse
      ++ (p.segments.reverse.takeWhile (· = [])).reverse := by
    rw [← List.reverse_append, hcut, List.reverse_reverse]
  unfold splitLast
  cases hkept : (p.segments.reverse.dropWhile (· = [])).reverse.getLast? with
  | none =>
    rw [List.getLast?_eq_none_iff] at hkept
    exact Or.inl (by simp [hkept])
  | some name =>
    obtain ⟨front, hfront⟩ := List.getLast?_eq_some_iff.1 hkept
    refine Or.inr ⟨(p.segments.reverse.takeWhile (· = [])).reverse, ?_⟩
    rw [hfront] at hsegments
    simpa [hfront] using hsegments

theorem exists_follow_splitLast (h : t.isDirectory p = true) :
    ∃ here, t.follow (t.origin p) (splitLast p).1 = .ok (here, .directory)
      ∧ (t.node? (descend here (splitLast p).2)).isSome = true := by
  obtain ⟨-, there, hthere⟩ := exists_follow_of_isDirectory h
  rcases exists_segments_of_splitLast p with hsplit | ⟨back, hsegments⟩
  · -- There are slashes only, so the path leads to where it starts.
    obtain ⟨segment, rest, hsegments⟩ := List.exists_cons_of_ne_nil
      (List.splitOn_ne_nil '/' p.text.toList)
    rw [Path.segments, hsegments, follow_cons_eq_ok_iff] at hthere
    refine ⟨t.origin p, ?_, ?_⟩
    · rw [hsplit, follow_nil_eq_ok_iff]
      exact ⟨rfl, hthere.1⟩
    · simp [hsplit, descend, hthere.1]
  · rw [hsegments] at hthere
    obtain ⟨here, hhere⟩ := exists_follow_of_append_cons hthere
    rw [follow_append_cons hhere] at hthere
    exact ⟨here, hhere, isSome_node?_of_follow hthere⟩

theorem makeDirectory_ne_ok (h : t.isDirectory p = true) : t.makeDirectory p ≠ .ok t' := by
  obtain ⟨here, hhere, hnode⟩ := exists_follow_splitLast h
  intro hmake
  unfold makeDirectory at hmake
  simp [(exists_follow_of_isDirectory h).1, hhere, hnode, bind, Except.bind] at hmake

theorem makeDirectories_of_isDirectory (h : t.isDirectory p = true) :
    t.makeDirectories p = (t, none) := by
  have hsettle : makeDirectories.settle t p = (t, none) := by
    unfold makeDirectories.settle
    cases hmake : t.makeDirectory p with
    | ok t' => exact absurd hmake (makeDirectory_ne_ok h)
    | error e => simp [h]
  unfold makeDirectories makeDirectories.go
  rw [hsettle]
  split <;> rfl

end FileTree
end LuaCodex
