import ByteHub.Library.WaitingLine

/-!
# Grouping in place

Equal elements of an array are brought together by swaps, and the ranges of
the groups are recorded in 16 bits.  The array ends as a permutation of what
it was, and the ranges cut it into groups: all elements of a group are equal,
and no element of a group is equal to one of another group.
-/

namespace ByteHub.Udp

open ByteHub.Library

variable {α : Type}

/-! ## The code -/

/-- A range of positions. -/
structure Range where
  start : UInt16
  stop : UInt16
deriving DecidableEq, Repr

/-- The range between two positions. -/
def Range.between (start stop : ℕ) : Range :=
  ⟨UInt16.ofNat start, UInt16.ofNat stop⟩

/-- The elements in a range. -/
def Range.slice (range : Range) (data : List α) : List α :=
  (data.take range.stop.toNat).drop range.start.toNat

/-- Exchange the elements at two positions. -/
def swap (data : List α) (i j : ℕ) : List α :=
  match data[i]?, data[j]? with
  | some atI, some atJ => (data.set i atJ).set j atI
  | _, _ => data

/-- `eq(&data[i], &data[j])` -/
def sameAt (eq : α → α → Bool) (data : List α) (i j : ℕ) : Bool :=
  match data[i]?, data[j]? with
  | some atI, some atJ => eq atI atJ
  | _, _ => false

/-- Bring the element at `probe` to the end of the group, if it belongs. -/
def pick
    (eq : α → α → Bool) (beg : ℕ) (state : List α × ℕ) (probe : ℕ) :
    List α × ℕ :=
  if sameAt eq state.1 probe beg then
    (swap state.1 probe state.2, state.2 + 1)
  else state

/-- Pick packets afterwards. -/
def pickAll
    (eq : α → α → Bool) (data : List α) (beg stop : ℕ) : List α × ℕ :=
  (List.range' (stop + 1) (data.length - (stop + 1))).foldl (pick eq beg)
    (data, stop)

/-- The outer loop; every round moves `stop` on, so there are at most as many
rounds as elements. -/
def groupLoop (eq : α → α → Bool) :
    ℕ → List α → List Range → ℕ → ℕ → List α × List Range
  | 0, data, groups, beg, stop => (data, groups ++ [.between beg stop])
  | rounds + 1, data, groups, beg, stop =>
      if stop < data.length then
        if sameAt eq data stop beg then
          groupLoop eq rounds data groups beg (stop + 1)
        else
          let (data, stop) := pickAll eq data beg stop
          groupLoop eq rounds data (groups ++ [.between beg stop]) stop
            (stop + 1)
      else (data, groups ++ [.between beg stop])

/-- Group the elements that are equal. -/
def groupByInner
    (eq : α → α → Bool) (data : List α) : List α × List Range :=
  groupLoop eq data.length data [] 0 1

/-- The second element belongs to the group of the first one. -/
def sameAs (eq : α → α → Bool) (first x : α) : Bool := eq x first

/-! ## Swapping and picking -/

section Split

variable (front middle back : List α) (near far : α)

private theorem getElem?_near :
    (front ++ near :: (middle ++ far :: back))[front.length]? =
      some near := by
  rw [List.getElem?_append_right (Nat.le_refl _), Nat.sub_self]
  rfl

private theorem getElem?_far :
    (front ++ near :: (middle ++ far :: back))[front.length + 1 +
      middle.length]? = some far := by
  rw [Nat.add_assoc, List.getElem?_append_right (Nat.le_add_right _ _),
    Nat.add_sub_cancel_left, Nat.add_comm 1, List.getElem?_cons_succ,
    List.getElem?_append_right (Nat.le_refl _), Nat.sub_self]
  rfl

theorem swap_split :
    swap (front ++ near :: (middle ++ far :: back))
        (front.length + 1 + middle.length) front.length =
      front ++ far :: (middle ++ near :: back) := by
  unfold swap
  rw [getElem?_far, getElem?_near]
  dsimp only
  rw [Nat.add_assoc, List.set_append_right _ _ (Nat.le_add_right _ _),
    Nat.add_sub_cancel_left, Nat.add_comm 1, List.set_cons_succ,
    List.set_append_right _ _ (Nat.le_refl _), Nat.sub_self,
    List.set_append_right _ _ (Nat.le_refl _), Nat.sub_self]
  rfl

theorem sameAt_split (eq : α → α → Bool) :
    sameAt eq (front ++ near :: (middle ++ far :: back))
        (front.length + 1 + middle.length) front.length = eq far near := by
  unfold sameAt
  rw [getElem?_far, getElem?_near]

end Split

/-- One probe: the group grows by the probed element, or those passed over
do. -/
theorem pick_split
    (eq : α → α → Bool) (front group rest : List α)
    (first passed probed : α) (others : List α) :
    pick eq front.length
        (front ++ first :: (group ++ passed :: (others ++ probed :: rest)),
          front.length + 1 + group.length)
        (front.length + 1 + group.length + 1 + others.length) =
      if eq probed first then
        (front ++ first :: ((group ++ [probed]) ++
          (others ++ [passed]) ++ rest),
          front.length + 1 + (group ++ [probed]).length)
      else
        (front ++ first :: (group ++ (passed :: (others ++ [probed])) ++
          rest),
          front.length + 1 + group.length) := by
  have seen :
      sameAt eq
          (front ++ first :: (group ++ passed :: (others ++ probed :: rest)))
          (front.length + 1 + group.length + 1 + others.length)
          front.length = eq probed first := by
    have split := sameAt_split front (group ++ passed :: others) rest first
      probed eq
    simpa [Nat.add_assoc, Nat.add_left_comm, Nat.add_comm] using split
  have swapped :
      swap (front ++ first :: (group ++ passed :: (others ++ probed :: rest)))
          (front.length + 1 + group.length + 1 + others.length)
          (front.length + 1 + group.length) =
        front ++ first ::
          (group ++ probed :: (others ++ passed :: rest)) := by
    have split := swap_split (front ++ first :: group) others rest passed
      probed
    simpa [Nat.add_assoc, Nat.add_left_comm, Nat.add_comm] using split
  unfold pick
  dsimp only
  rw [seen, swapped]
  split
  · simp [Nat.add_assoc]
  · simp

/-- The probes from some point on: the group grows by what belongs to it, and
the others are a waiting line that the group's elements turn. -/
theorem pick_rest
    (eq : α → α → Bool) (front : List α) (first : α) (todo : List α)
    {group others : List α} (passed : α) :
    (List.range' (front.length + 1 + group.length + 1 + others.length)
        todo.length).foldl (pick eq front.length)
        (front ++ first :: (group ++ passed :: (others ++ todo)),
          front.length + 1 + group.length) =
      (front ++ first :: (group ++ todo.filter (sameAs eq first) ++
          todo.foldl (WaitingLine.serve (sameAs eq first))
            (passed :: others)),
        front.length + 1 +
          (group ++ todo.filter (sameAs eq first)).length) := by
  induction todo generalizing group others passed with
  | nil => simp
  | cons probed todo inductionHypothesis =>
      rw [List.length_cons, List.range'_succ, List.foldl_cons, pick_split,
        List.foldl_cons]
      cases same : eq probed first with
      | true =>
          have calls : sameAs eq first probed = true := same
          obtain ⟨passed', others', turned⟩ :
              ∃ passed' others', others ++ [passed] = passed' :: others' :=
            List.exists_cons_of_ne_nil
              (List.append_ne_nil_of_right_ne_nil others
                (List.cons_ne_nil passed []))
          have length : others.length = others'.length := by
            have lengths := congrArg List.length turned
            simpa using lengths
          have served :
              WaitingLine.serve (sameAs eq first) (passed :: others)
                probed = passed' :: others' := by
            rw [WaitingLine.serve_of_calls calls, ← turned]
            simp
          have onwards :
              front.length + 1 + group.length + 1 + others.length + 1 =
                front.length + 1 + (group ++ [probed]).length + 1 +
                  others'.length := by
            rw [List.length_append, List.length_singleton]
            omega
          rw [if_pos rfl, turned, onwards, List.append_assoc,
            List.cons_append, inductionHypothesis passed', served,
            List.filter_cons_of_pos calls, ← List.append_cons]
      | false =>
          have joins : sameAs eq first probed = false := same
          have joined :
              WaitingLine.serve (sameAs eq first) (passed :: others)
                probed = passed :: (others ++ [probed]) :=
            WaitingLine.serve_of_joins joins
          have onwards :
              front.length + 1 + group.length + 1 + others.length + 1 =
                front.length + 1 + group.length + 1 +
                  (others ++ [probed]).length := by
            rw [List.length_append, List.length_singleton]
            omega
          have split :
              group ++ passed :: (others ++ [probed]) ++ todo =
                group ++ passed :: (others ++ [probed] ++ todo) := by
            simp
          rw [if_neg Bool.false_ne_true, onwards, split,
            inductionHypothesis passed, joined,
            List.filter_cons_of_neg (by simp [joins])]

theorem pickAll_split
    (eq : α → α → Bool) (front : List α) (first : α) (rest : List α)
    {group : List α} {passed : α} (differs : eq passed first = false) :
    pickAll eq (front ++ first :: (group ++ passed :: rest))
        front.length (front.length + 1 + group.length) =
      (front ++ first ::
          (group ++ (passed :: rest).filter (sameAs eq first) ++
            WaitingLine.line (sameAs eq first) (passed :: rest)),
        front.length + 1 +
          (group ++
            (passed :: rest).filter (sameAs eq first)).length) := by
  have joins : sameAs eq first passed = false := differs
  have probes :
      (front ++ first :: (group ++ passed :: rest)).length -
          (front.length + 1 + group.length + 1) = rest.length := by
    simp only [List.length_append, List.length_cons]
    omega
  have waiting :
      WaitingLine.line (sameAs eq first) (passed :: rest) =
        rest.foldl (WaitingLine.serve (sameAs eq first)) [passed] := by
    rw [WaitingLine.line, List.foldl_cons,
      WaitingLine.serve_of_joins joins]
    rfl
  rw [pickAll, probes, waiting, List.filter_cons_of_neg (by simp [joins])]
  exact @pick_rest _ eq front first rest group [] passed

/-! ## The groups -/

/-- The ranges of consecutive groups. -/
def rangesOf : ℕ → List (List α) → List Range
  | _, [] => []
  | beg, group :: groups =>
      .between beg (beg + group.length) ::
        rangesOf (beg + group.length) groups

theorem rangesOf_append (beg : ℕ) (first second : List (List α)) :
    rangesOf beg (first ++ second) =
      rangesOf beg first ++
        rangesOf (beg + first.flatten.length) second := by
  induction first generalizing beg with
  | nil => rfl
  | cons group first inductionHypothesis =>
      rw [List.cons_append, rangesOf, inductionHypothesis, rangesOf,
        List.flatten_cons, List.length_append, Nat.add_assoc,
        List.cons_append]

/-- The groups: the elements that are equal to the first one, and the groups
of the line that the others have formed meanwhile. -/
def passes (eq : α → α → Bool) : List α → List (List α)
  | [] => []
  | first :: rest =>
      (first :: rest.filter (sameAs eq first)) ::
        passes eq (WaitingLine.line (sameAs eq first) rest)
termination_by data => data.length
decreasing_by exact Nat.lt_succ_of_le WaitingLine.length_line_le

/-- A cut of a list into groups of equal elements, one for each class. -/
structure Cut (eq : α → α → Bool) (groups : List (List α)) : Prop where
  nonempty : ∀ group ∈ groups, group ≠ []
  equal : ∀ group ∈ groups, ∀ a ∈ group, ∀ b ∈ group, eq a b = true
  apart : groups.Pairwise fun group other =>
    ∀ a ∈ group, ∀ b ∈ other, eq a b = false

theorem Cut.tail
    {eq : α → α → Bool} {group : List α} {groups : List (List α)}
    (cut : Cut eq (group :: groups)) : Cut eq groups where
  nonempty other member := cut.nonempty other (List.mem_cons_of_mem _ member)
  equal other member := cut.equal other (List.mem_cons_of_mem _ member)
  apart := (List.pairwise_cons.1 cut.apart).2

theorem Cut.cons
    {eq : α → α → Bool} (equivalence : Equivalence fun a b => eq a b = true)
    {first : α} {group : List α} {groups : List (List α)}
    (belongs : ∀ x ∈ group, eq x first = true)
    (differs : ∀ x ∈ groups.flatten, eq x first = false)
    (cut : Cut eq groups) : Cut eq ((first :: group) :: groups) := by
  have toFirst :
      ∀ x ∈ first :: group, eq x first = true :=
    List.forall_mem_cons.2 ⟨equivalence.refl first, belongs⟩
  constructor
  · intro other member
    rcases List.mem_cons.1 member with rfl | later
    · exact List.cons_ne_nil _ _
    · exact cut.nonempty other later
  · intro other member a aMem b bMem
    rcases List.mem_cons.1 member with rfl | later
    · exact equivalence.trans (toFirst a aMem)
        (equivalence.symm (toFirst b bMem))
    · exact cut.equal other later a aMem b bMem
  · refine List.pairwise_cons.2 ⟨?_, cut.apart⟩
    intro other later a aMem b bMem
    rw [Bool.eq_false_iff]
    intro same
    have equal :
        eq b first = true :=
      equivalence.trans (equivalence.symm same) (toFirst a aMem)
    have different := differs b (List.mem_flatten.2 ⟨other, later, bMem⟩)
    rw [equal] at different
    cases different

/-- The last group ends with the data. -/
theorem groupLoop_last
    (eq : α → α → Bool) (rounds : ℕ) (done : List (List α)) (first : α)
    (group : List α) :
    groupLoop eq rounds (done.flatten ++ first :: (group ++ []))
        (rangesOf 0 done) done.flatten.length
        (done.flatten.length + 1 + group.length) =
      ((done ++ [first :: group]).flatten,
        rangesOf 0 (done ++ [first :: group])) := by
  have stop :
      done.flatten.length + 1 + group.length =
        done.flatten.length + (first :: group).length := by
    rw [List.length_cons]
    omega
  have ended :
      (done.flatten ++ first :: (group ++ []),
        rangesOf 0 done ++
          [.between done.flatten.length
            (done.flatten.length + 1 + group.length)]) =
        ((done ++ [first :: group]).flatten,
          rangesOf 0 (done ++ [first :: group])) := by
    rw [rangesOf_append, stop]
    simp [rangesOf]
  rw [← ended]
  cases rounds with
  | zero => rfl
  | succ rounds =>
      rw [groupLoop, if_neg]
      simp only [List.length_append, List.length_cons, List.append_nil]
      omega

/-- The groups, from one that is begun. -/
def groupsFrom
    (eq : α → α → Bool) (first : α) (group rest : List α) :
    List (List α) :=
  (first :: (group ++ rest.filter (sameAs eq first))) ::
    passes eq (WaitingLine.line (sameAs eq first) rest)

theorem passes_cons (eq : α → α → Bool) (first : α) (rest : List α) :
    passes eq (first :: rest) = groupsFrom eq first [] rest := by
  rw [passes]
  rfl

theorem groupsFrom_nil (eq : α → α → Bool) (first : α) (group : List α) :
    groupsFrom eq first group [] = [first :: group] := by
  simp [groupsFrom, WaitingLine.line, passes]

theorem groupsFrom_of_same
    {eq : α → α → Bool} {first passed : α}
    (same : eq passed first = true) (group rest : List α) :
    groupsFrom eq first group (passed :: rest) =
      groupsFrom eq first (group ++ [passed]) rest := by
  have calls : sameAs eq first passed = true := same
  rw [groupsFrom, groupsFrom, List.filter_cons_of_pos calls,
    List.append_cons group, WaitingLine.line, List.foldl_cons,
    WaitingLine.serve_of_calls calls]
  rfl

/-- One that does not belong to the group waits, and no more wait than are
left. -/
theorem exists_line_of_differs
    {eq : α → α → Bool} {first passed : α}
    (differs : eq passed first = false) (rest : List α) :
    ∃ next others,
      WaitingLine.line (sameAs eq first) (passed :: rest) =
          next :: others ∧
        others.length ≤ rest.length := by
  have waits :
      passed ∈ WaitingLine.line (sameAs eq first) (passed :: rest) :=
    WaitingLine.mem_line_iff.2 ⟨List.mem_cons_self, differs⟩
  obtain ⟨next, others, waiting⟩ :=
    List.exists_cons_of_ne_nil (List.ne_nil_of_mem waits)
  have shorter :=
    @WaitingLine.length_line_le _ (sameAs eq first) (passed :: rest)
  rw [waiting] at shorter
  exact ⟨next, others, waiting, Nat.le_of_succ_le_succ shorter⟩

/-- The outer loop, from a group that is begun. -/
theorem groupLoop_eq
    (eq : α → α → Bool) {rounds : ℕ} (done : List (List α)) (first : α)
    {group rest : List α} (enough : rest.length ≤ rounds) :
    groupLoop eq rounds (done.flatten ++ first :: (group ++ rest))
        (rangesOf 0 done) done.flatten.length
        (done.flatten.length + 1 + group.length) =
      ((done ++ groupsFrom eq first group rest).flatten,
        rangesOf 0 (done ++ groupsFrom eq first group rest)) := by
  induction rounds generalizing done first group rest with
  | zero =>
      rw [List.eq_nil_of_length_eq_zero (Nat.le_zero.1 enough),
        groupsFrom_nil]
      exact groupLoop_last eq 0 done first group
  | succ rounds inductionHypothesis =>
      cases rest with
      | nil =>
          rw [groupsFrom_nil]
          exact groupLoop_last eq (rounds + 1) done first group
      | cons passed rest =>
          have inside :
              done.flatten.length + 1 + group.length <
                (done.flatten ++ first :: (group ++ passed :: rest)).length
                := by
            simp only [List.length_append, List.length_cons]
            omega
          rw [groupLoop, if_pos inside, sameAt_split]
          cases same : eq passed first with
          | true =>
              have looped :=
                @inductionHypothesis done first (group ++ [passed]) rest
                  (Nat.le_of_succ_le_succ enough)
              rw [List.append_assoc, List.singleton_append,
                List.length_append, List.length_singleton,
                ← groupsFrom_of_same same] at looped
              exact looped
          | false =>
              -- The group is complete, and the line begins the next one.
              obtain ⟨next, others, waiting, fewer⟩ :=
                exists_line_of_differs same rest
              rw [if_neg Bool.false_ne_true,
                pickAll_split eq done.flatten first rest same, groupsFrom,
                waiting, passes_cons]
              generalize
                group ++ (passed :: rest).filter (sameAs eq first) = all
              have looped :=
                @inductionHypothesis (done ++ [first :: all]) next [] others
                  (fewer.trans (Nat.le_of_succ_le_succ enough))
              have flat :
                  (done ++ [first :: all]).flatten =
                    done.flatten ++ first :: all := by
                simp
              have stop :
                  (done ++ [first :: all]).flatten.length =
                    done.flatten.length + 1 + all.length := by
                rw [flat, List.length_append, List.length_cons]
                omega
              rw [stop, rangesOf_append, flat] at looped
              simpa [rangesOf, Nat.add_assoc, Nat.add_comm,
                Nat.add_left_comm] using looped

/-- Grouping a non-empty array makes its passes. -/
theorem groupByInner_eq
    (eq : α → α → Bool) {data : List α} (nonempty : data ≠ []) :
    groupByInner eq data =
      ((passes eq data).flatten, rangesOf 0 (passes eq data)) := by
  cases data with
  | nil => exact (nonempty rfl).elim
  | cons first rest =>
      rw [passes_cons]
      exact @groupLoop_eq _ eq _ [] first [] rest (Nat.le_succ _)

theorem passes_perm (eq : α → α → Bool) (data : List α) :
    (passes eq data).flatten.Perm data := by
  fun_induction passes eq data with
  | case1 => exact List.Perm.refl _
  | case2 first rest inductionHypothesis =>
      rw [List.flatten_cons, List.cons_append]
      have others := inductionHypothesis.trans WaitingLine.line_perm
      exact
        ((others.append_left _).trans
          (List.filter_append_perm _ rest)).cons first

theorem cut_passes
    {eq : α → α → Bool} (equivalence : Equivalence fun a b => eq a b = true)
    (data : List α) : Cut eq (passes eq data) := by
  fun_induction passes eq data with
  | case1 =>
      constructor
      · rintro _ ⟨⟩
      · rintro _ ⟨⟩
      · exact List.Pairwise.nil
  | case2 first rest inductionHypothesis =>
      apply Cut.cons equivalence _ _ inductionHypothesis
      · intro x member
        exact (List.mem_filter.1 member).2
      · intro x member
        have waits := (passes_perm eq _).mem_iff.1 member
        exact (WaitingLine.mem_line_iff.1 waits).2

/-- Grouping a non-empty array cuts a permutation of it. -/
theorem groupByInner_spec
    {eq : α → α → Bool} (equivalence : Equivalence fun a b => eq a b = true)
    {data : List α} (nonempty : data ≠ []) :
    ∃ groups, groupByInner eq data = (groups.flatten, rangesOf 0 groups) ∧
      groups.flatten.Perm data ∧ Cut eq groups :=
  ⟨passes eq data, groupByInner_eq eq nonempty, passes_perm eq data,
    cut_passes equivalence data⟩

/-! ## Slices -/

theorem slice_between
    (front group back : List α)
    (small : (front ++ group).length < 65536) :
    (Range.between front.length (front.length + group.length)).slice
      (front ++ group ++ back) = group := by
  rw [List.length_append] at small
  have start :
      (UInt16.ofNat front.length).toNat = front.length :=
    UInt16.toNat_ofNat_of_lt' (by change _ < 65536; omega)
  have stop :
      (UInt16.ofNat (front.length + group.length)).toNat =
        (front ++ group).length := by
    rw [List.length_append]
    exact UInt16.toNat_ofNat_of_lt' small
  rw [Range.slice, Range.between, start, stop, List.take_left',
    List.drop_left']
  · rfl
  · rfl

/-- The recorded ranges are those of the groups. -/
theorem slices_rangesOf
    (front : List α) (groups : List (List α)) (back : List α)
    (small : (front ++ groups.flatten).length < 65536) :
    (rangesOf front.length groups).map
      (fun range => range.slice (front ++ groups.flatten ++ back)) =
        groups := by
  induction groups generalizing front with
  | nil => rfl
  | cons group groups inductionHypothesis =>
      rw [List.flatten_cons, ← List.append_assoc] at small ⊢
      have short :
          (front ++ group).length < 65536 := by
        rw [List.length_append] at small
        omega
      have onwards := inductionHypothesis (front ++ group) small
      rw [List.length_append] at onwards
      rw [rangesOf, List.map_cons, onwards, List.append_assoc (front ++ group),
        slice_between front group (groups.flatten ++ back) short]

end ByteHub.Udp
