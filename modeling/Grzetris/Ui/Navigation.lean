import Mathlib.Data.Set.List
import Grzetris.Ui.Menu

/-!
# Moving through a menu

`linkNodes` gives every node the address of its neighbours, so `inputDriver`
follows a link exactly when the place of the selected node has a neighbour: the
selection of a linked menu walks over its places.
-/

namespace Grzetris

open Foundation

variable {κ σ : Type} {isCircular : Bool} {m : Menu κ} {call : Calls κ σ}
  {s : MenuState κ σ} {i : Nat}

/-! ## What the links are -/

/-- A node at place `i` of `m`, linked to the neighbouring places. -/
def linkedNode (isCircular : Bool) (m : Menu κ) (i : Nat) (n : Node κ) :
    Node κ :=
  { n with
    prev := (Places.neighbour? isCircular m.nodes.length i .back).map
      (m.data + ·)
    next := (Places.neighbour? isCircular m.nodes.length i .on).map
      (m.data + ·) }

def linkedMenu (isCircular : Bool) (m : Menu κ) : Menu κ :=
  { m with nodes := m.nodes.mapIdx (linkedNode isCircular m) }

@[simp] theorem length_linkedMenu (isCircular : Bool) (m : Menu κ) :
    (linkedMenu isCircular m).nodes.length = m.nodes.length := by
  simp [linkedMenu]

/-- The menu after `k` rounds of the loop. -/
private def linkedTo (isCircular : Bool) (m : Menu κ) (k : Nat) : Menu κ :=
  { m with
    nodes := m.nodes.mapIdx fun i n =>
      if i < k then linkedNode isCircular m i n else n }

theorem linkNode_eq {n : Node κ} (hnode : m.nodes[i]? = some n) :
    linkNode isCircular m i =
      some { m with
        nodes := m.nodes.set i (linkedNode isCircular m i n) } := by
  obtain ⟨hi, -⟩ := List.getElem?_eq_some_iff.mp hnode
  have hprev : i - 1 < m.nodes.length := by omega
  have hlast : m.nodes.length - 1 < m.nodes.length := by omega
  have hfirst : 0 < m.nodes.length := by omega
  simp only [linkNode, linkedNode, Places.neighbour?, Menu.at?, hnode, hprev,
    hlast, hfirst, if_true, Option.bind_eq_bind, Option.bind_some,
    Option.map_some, Nat.add_zero]
  have hnext : i ≠ m.nodes.length - 1 → i + 1 < m.nodes.length := by omega
  cases isCircular <;> grind

private theorem linkNode_linkedTo (hi : i < m.nodes.length) :
    linkNode isCircular (linkedTo isCircular m i) i =
      some (linkedTo isCircular m (i + 1)) := by
  have hnode : (linkedTo isCircular m i).nodes[i]? = some m.nodes[i] := by
    simp [linkedTo, hi]
  have hlength : (linkedTo isCircular m i).nodes.length = m.nodes.length := by
    simp [linkedTo]
  rw [linkNode_eq hnode]
  have hsame : linkedNode isCircular (linkedTo isCircular m i) i =
      linkedNode isCircular m i := by
    funext n
    rw [linkedNode, hlength]
    rfl
  rw [hsame, Option.some_inj]
  simp only [linkedTo, Menu.mk.injEq, true_and]
  apply List.ext_getElem?
  intro j
  rw [List.getElem?_set]
  by_cases hij : i = j
  · subst hij
    simp [hi]
  · -- The other nodes are linked as far as they were.
    have hlt : j < i ↔ j < i + 1 := by omega
    simp [hij, hlt]

private theorem linkedTo_zero : linkedTo isCircular m 0 = m := by
  cases m
  simp only [linkedTo, Menu.mk.injEq, true_and]
  apply List.ext_getElem?
  simp

private theorem linkedTo_length :
    linkedTo isCircular m m.nodes.length = linkedMenu isCircular m := by
  simp only [linkedTo, linkedMenu, Menu.mk.injEq, true_and]
  apply List.ext_getElem?
  intro j
  by_cases hj : j < m.nodes.length <;> simp [hj]

private def linkRound (isCircular : Bool) (m : Menu κ) (i : Nat) :
    Option (Menu κ) := do
  let m ← linkNode isCircular m i
  if i < intMax then some m else none

private theorem linkRound_linkedTo (hi : i < m.nodes.length)
    (hindex : i < intMax) :
    linkRound isCircular (linkedTo isCircular m i) i =
      some (linkedTo isCircular m (i + 1)) := by
  simp [linkRound, linkNode_linkedTo hi, hindex]

private theorem linkRound_stuck (hlarge : intMax < m.nodes.length) :
    linkRound isCircular (linkedTo isCircular m intMax) intMax = none := by
  simp [linkRound, linkNode_linkedTo hlarge]

/-- The menus that can be linked are those whose nodes an `int` can count. -/
theorem linkNodes_eq (m : Menu κ) (isCircular : Bool) :
    linkNodes m isCircular =
      if m.nodes.length ≤ intMax then some (linkedMenu isCircular m)
      else none := by
  have hloop : linkNodes m isCircular = (List.range m.nodes.length).foldlM
      (linkRound isCircular) (linkedTo isCircular m 0) := by
    rw [linkedTo_zero]
    rfl
  rw [hloop, ← linkedTo_length]
  split
  · exact foldlM_range_of_steps _ (linkedTo isCircular m) fun i hi =>
      linkRound_linkedTo hi (by omega)
  · have hlarge : intMax < m.nodes.length := by omega
    exact foldlM_range_of_stuck _ (linkedTo isCircular m)
      (fun i hi => linkRound_linkedTo (by omega) hi) (linkRound_stuck hlarge)
      hlarge

theorem linkNodes_some {m' : Menu κ}
    (hlinked : linkNodes m isCircular = some m') :
    m' = linkedMenu isCircular m := by
  rw [linkNodes_eq] at hlinked
  split at hlinked
  · exact (Option.some_inj.mp hlinked).symm
  · contradiction

theorem isSome_linkNodes (m : Menu κ) (isCircular : Bool) :
    (linkNodes m isCircular).isSome ↔ m.nodes.length ≤ intMax := by
  by_cases hlength : m.nodes.length ≤ intMax <;>
    simp [linkNodes_eq, hlength]

theorem linkNodes_mainMenu (data : Addr) :
    linkNodes (mainMenu data) true =
      some (linkedMenu true (mainMenu data)) := by
  rw [linkNodes_eq, if_pos]
  simp [mainMenu, intMax]

/-! ## One input -/

/-- Node `i` is selected. -/
def Menu.selecting (m : Menu κ) (i : Nat) : Menu κ :=
  { m with selected := some (m.data + i) }

/-- The focus callbacks of a menu do not modify menus. -/
def FocusKeepsMenu (call : Calls κ σ) (m : Menu κ) : Prop :=
  ∀ n ∈ m.nodes, ∀ s, (call n.onFocus s).2.m = s.m ∧
    (call n.onFocusLost s).2.m = s.m

theorem initMain_eq (data : Addr) :
    initMain data =
      some ((linkedMenu true (mainMenu data)).selecting 0) := by
  rw [initMain, linkNodes_mainMenu]
  rfl

theorem mainCalls_keeps (game : MenuState Callback σ → MenuState Callback σ)
    (data : Addr) :
    FocusKeepsMenu (mainCalls game) (linkedMenu true (mainMenu data)) := by
  intro n hn s
  have hcallbacks : n.onFocus = .doNothing ∧ n.onFocusLost = .doNothing := by
    simp [linkedMenu, linkedNode, mainMenu, initNode, List.mapIdx_cons] at hn
    rcases hn with rfl | rfl | rfl | rfl <;> exact ⟨rfl, rfl⟩
  rw [hcallbacks.1, hcallbacks.2]
  exact ⟨rfl, rfl⟩

def linkOf : Way → Node κ → Option Addr
  | .on => Node.next
  | .back => Node.prev

def bindOf : Way → Bind
  | .on => .menuNext
  | .back => .menuPrev

theorem linkOf_linkedNode (isCircular : Bool) (m : Menu κ) (i : Nat)
    (way : Way) (n : Node κ) :
    linkOf way (linkedNode isCircular m i n) =
      (Places.neighbour? isCircular m.nodes.length i way).map
        (m.data + ·) := by
  cases way <;> rfl

theorem node?_linkedMenu (hi : i < m.nodes.length) :
    (linkedMenu isCircular m).node? (some (m.data + i)) =
      some (linkedNode isCircular m i m.nodes[i]) := by
  simp [Menu.node?, linkedMenu, hi]

theorem node?_selecting (m : Menu κ) (i : Nat) (pointer : Option Addr) :
    (m.selecting i).node? pointer = m.node? pointer := by
  cases pointer <;> rfl

theorem linkedNode_mem (hi : i < m.nodes.length) :
    linkedNode isCircular m i m.nodes[i] ∈
      (linkedMenu isCircular m).nodes := by
  apply List.mem_of_getElem? (i := i)
  simp [linkedMenu, hi]

theorem selected_node (hi : i < m.nodes.length)
    (hs : s.m = (linkedMenu isCircular m).selecting i) :
    s.m.node? s.m.selected =
      some (linkedNode isCircular m i m.nodes[i]) := by
  rw [hs, node?_selecting]
  exact node?_linkedMenu hi

theorem followLink_of_link {link : Node κ → Option Addr}
    {selected other : Node κ} {s' : MenuState κ σ} {addr : Addr}
    (hselected : s.m.node? s.m.selected = some selected)
    (hlink : link selected = some addr)
    (hlost : (call selected.onFocusLost s).2 = s')
    (hselected' : s'.m.node? s'.m.selected = some selected)
    (hother : (s'.select (some addr)).m.node?
      (s'.select (some addr)).m.selected = some other) :
    followLink call link s =
      some (call other.onFocus (s'.select (some addr))) := by
  subst hlost
  simp [followLink, hselected, hlink, hselected', hother]

/-- A link leads to the neighbour, and without one nothing happens. -/
theorem followLink_linkedMenu
    (hfocus : FocusKeepsMenu call (linkedMenu isCircular m))
    (hi : i < m.nodes.length)
    (hs : s.m = (linkedMenu isCircular m).selecting i) (way : Way) :
    ∃ r, followLink call (linkOf way) s = some r ∧
      r.2.m = (linkedMenu isCircular m).selecting
        (Places.move isCircular m.nodes.length i way) := by
  have hselected := selected_node hi hs
  have hlink := linkOf_linkedNode isCircular m i way m.nodes[i]
  cases hneighbour : Places.neighbour? isCircular m.nodes.length i way with
  | none =>
      rw [hneighbour, Option.map_none] at hlink
      refine ⟨(.none, s), ?_, ?_⟩
      · simp [followLink, hselected, hlink]
      · rw [hs, Places.move_of_none hneighbour]
  | some j =>
      have hj : j < m.nodes.length := Places.neighbour?_lt hi hneighbour
      rw [hneighbour, Option.map_some] at hlink
      generalize hs' : (call
        (linkedNode isCircular m i m.nodes[i]).onFocusLost s).2 = s'
      have hlost : s'.m = (linkedMenu isCircular m).selecting i := by
        rw [← hs', (hfocus _ (linkedNode_mem hi) s).2, hs]
      have hmoved : (s'.select (some (m.data + j))).m =
          (linkedMenu isCircular m).selecting j := by
        rw [MenuState.select, hlost]
        rfl
      refine ⟨_, followLink_of_link hselected hlink hs'
        (selected_node hi hlost) (selected_node hj hmoved), ?_⟩
      rw [(hfocus _ (linkedNode_mem hj) _).1, hmoved,
        Places.move_of_neighbour hneighbour]

theorem handleMenuBind_bindOf (call : Calls κ σ) (s : MenuState κ σ)
    (way : Way) :
    handleMenuBind call s (bindOf way) = followLink call (linkOf way) s := by
  cases way <;> rfl

theorem inputDriver_linkedMenu
    (hfocus : FocusKeepsMenu call (linkedMenu isCircular m))
    (hi : i < m.nodes.length)
    (hs : s.m = (linkedMenu isCircular m).selecting i) {way : Way}
    (hbind : (nextMenuBind s.input).1 = bindOf way) :
    ∃ r, inputDriver call s = some r ∧
      r.2.m = (linkedMenu isCircular m).selecting
        (Places.move isCircular m.nodes.length i way) := by
  obtain ⟨r, hfollow, hm⟩ := followLink_linkedMenu
    (s := { s with input := (nextMenuBind s.input).2 }) hfocus hi hs way
  refine ⟨(r.1.result, r.2), ?_, hm⟩
  simp [inputDriver, hbind, handleMenuBind_bindOf, hfollow]

/-! ## A sequence of inputs -/

/-- The bind that `inputDriver` handles when it finds this input state. -/
def handledBind (input : BufferedInput) : Bind := (nextMenuBind input).1

/-- Driven by `inputs`, the selection of `m` moves from node `i` to node `j`,
and nothing else in the menu changes. -/
def Drives (call : Calls κ σ) (inputs : List BufferedInput) (m : Menu κ)
    (i j : Nat) : Prop :=
  ∀ s, s.m = m.selecting i →
    ∃ s', driveInputs call inputs s = some s' ∧ s'.m = m.selecting j

theorem drives_walk (inputs : List BufferedInput) (ways : List Way)
    (hfocus : FocusKeepsMenu call (linkedMenu isCircular m))
    (hi : i < m.nodes.length)
    (hways : inputs.map handledBind = ways.map bindOf) :
    Drives call inputs (linkedMenu isCircular m) i
      (Places.walk isCircular m.nodes.length i ways) := by
  induction inputs generalizing i ways with
  | nil =>
      obtain rfl : ways = [] := by simpa using hways.symm
      exact fun s hs => ⟨s, rfl, hs⟩
  | cons input inputs ih =>
      cases ways with
      | nil => simp at hways
      | cons way ways =>
          simp only [List.map_cons, List.cons.injEq] at hways
          intro s hs
          obtain ⟨r, hdriver, hm⟩ := inputDriver_linkedMenu
            (s := { s with input := input }) hfocus hi hs hways.1
          obtain ⟨s', hdrive, hm'⟩ :=
            ih ways (Places.move_lt hi way) hways.2 r.2 hm
          exact ⟨s', by simp [driveInputs, hdriver, hdrive], hm'⟩

theorem drives_ring_undo (first second : BufferedInput) (way way' : Way)
    (hfocus : FocusKeepsMenu call (linkedMenu true m))
    (hi : i < m.nodes.length) (hfirst : handledBind first = bindOf way)
    (hsecond : handledBind second = bindOf way') (hne : way ≠ way') :
    Drives call [first, second] (linkedMenu true m) i i := by
  have hdrives := drives_walk [first, second] [way, way'] hfocus hi
    (by simp [hfirst, hsecond])
  rwa [Places.walk_ring_undo hi hne] at hdrives

theorem bindOf_injective : Function.Injective bindOf := by
  intro first second
  cases first <;> cases second <;> simp [bindOf]

/-- One input in a row of `n` nodes. -/
def rowMove (n i : Nat) : Bind → Nat
  | .menuNext => min (i + 1) (n - 1)
  | .menuPrev => i - 1
  | _ => i

theorem walk_row {n : Nat} (hi : i < n) (ways : List Way) :
    Places.walk false n i ways = (ways.map bindOf).foldl (rowMove n) i := by
  induction ways generalizing i with
  | nil => rfl
  | cons way ways ih =>
      have hmove : Places.move false n i way = rowMove n i (bindOf way) := by
        cases way with
        | on => exact Places.move_row_on hi
        | back => exact Places.move_row_back n i
      rw [Places.walk_cons, ih (Places.move_lt hi way), hmove]
      rfl

/-- An input state in which one key is waiting, which is bound to `bind`. -/
def pressed (bind : Bind) : BufferedInput :=
  { setBind (setCurrentMap Input.empty .menu) bind .keyJ with
    inputBuffer := [.keyJ] }

theorem handledBind_pressed (bind : Bind) :
    handledBind (pressed bind) = bind := rfl

/-- Only NEXT and PREV are handled. -/
def Navigates (inputs : List BufferedInput) : Prop :=
  ∀ input ∈ inputs,
    handledBind input = .menuNext ∨ handledBind input = .menuPrev

theorem navigates_replicate (k : Nat) {bind : Bind}
    (hbind : bind = .menuNext ∨ bind = .menuPrev) :
    Navigates (List.replicate k (pressed bind)) := by
  intro input hinput
  rw [List.eq_of_mem_replicate hinput]
  exact hbind

theorem Navigates.exists_ways {inputs : List BufferedInput}
    (hinputs : Navigates inputs) :
    ∃ ways : List Way, inputs.map handledBind = ways.map bindOf := by
  have hrange : inputs.map handledBind ∈ Set.range (List.map bindOf) := by
    rw [Set.range_list_map]
    intro bind hbind
    obtain ⟨input, hinput, rfl⟩ := List.mem_map.mp hbind
    rcases hinputs input hinput with hnext | hprev
    · exact ⟨.on, hnext.symm⟩
    · exact ⟨.back, hprev.symm⟩
  obtain ⟨ways, hways⟩ := hrange
  exact ⟨ways, hways.symm⟩

theorem walk_ring {n : Nat} (hi : i < n) (ways : List Way) :
    (Places.walk true n i ways : Int) =
      (i + (ways.map bindOf).count .menuNext -
        (ways.map bindOf).count .menuPrev) % n := by
  have hcount : ∀ way, (ways.map bindOf).count (bindOf way) =
      ways.count way :=
    List.count_map_of_injective ways bindOf bindOf_injective
  rw [Places.walk_ring hi, ← hcount .on, ← hcount .back]
  rfl

/-- A menu can be linked exactly when an `int` can count its nodes, and then the
selection never leaves it.  On a ring its place is counted modulo the
number of nodes, so NEXT and PREV undo each other and every node can be reached;
in a row an input moves by one and the ends hold. -/
theorem selection_stays (m : Menu κ) (isCircular : Bool) (call : Calls κ σ) :
    ((linkNodes m isCircular).isSome ↔ m.nodes.length ≤ intMax) ∧
    ∀ m', linkNodes m isCircular = some m' → FocusKeepsMenu call m' →
      (∀ start < m'.nodes.length, ∀ inputs, Navigates inputs →
        ∃ j < m'.nodes.length, Drives call inputs m' start j ∧
          (isCircular = true →
            (j : Int) = (start + (inputs.map handledBind).count .menuNext -
              (inputs.map handledBind).count .menuPrev) % m'.nodes.length) ∧
          (isCircular = false →
            j = (inputs.map handledBind).foldl (rowMove m'.nodes.length)
              start)) ∧
      (isCircular = true → ∀ i < m'.nodes.length,
        (∀ next prev, handledBind next = .menuNext →
          handledBind prev = .menuPrev →
          Drives call [next, prev] m' i i ∧ Drives call [prev, next] m' i i) ∧
        ∀ j < m'.nodes.length, ∃ inputs, Navigates inputs ∧
          Drives call inputs m' i j) := by
  refine ⟨isSome_linkNodes m isCircular, fun m' hlinked hfocus => ?_⟩
  obtain rfl := linkNodes_some hlinked
  simp only [length_linkedMenu]
  constructor
  · intro start hstart inputs hinputs
    obtain ⟨ways, hways⟩ := hinputs.exists_ways
    refine ⟨_, Places.walk_lt hstart ways,
      drives_walk inputs ways hfocus hstart hways, ?_, ?_⟩
    · rintro rfl
      rw [hways, walk_ring hstart]
    · rintro rfl
      rw [hways, walk_row hstart]
  · rintro rfl i hi
    constructor
    · intro next prev hnext hprev
      exact ⟨drives_ring_undo next prev .on .back hfocus hi hnext hprev
          (by decide),
        drives_ring_undo prev next .back .on hfocus hi hprev hnext
          (by decide)⟩
    · intro j hj
      obtain ⟨k, hwalk⟩ := Places.exists_walk_ring hi hj
      refine ⟨List.replicate k (pressed .menuNext),
        navigates_replicate k (.inl rfl), ?_⟩
      rw [← hwalk]
      apply drives_walk _ _ hfocus hi
      simp [handledBind_pressed, bindOf]

theorem selection_stays_main :
    ∃ main, initMain 0 = some (main.selecting 0) ∧
      Drives (mainCalls id : Calls Callback Unit)
        (List.replicate 3 (pressed .menuPrev)) main 0 1 := by
  refine ⟨linkedMenu true (mainMenu 0), initMain_eq 0, ?_⟩
  obtain ⟨hwalk, -⟩ := (selection_stays (mainMenu 0) true
    (mainCalls id : Calls Callback Unit)).2 _ (linkNodes_mainMenu 0)
    (mainCalls_keeps id 0)
  obtain ⟨j, -, hdrives, hring, -⟩ := hwalk 0 (by decide)
    (List.replicate 3 (pressed .menuPrev)) (navigates_replicate 3 (.inr rfl))
  have hplace : (j : Int) = 1 := by
    simpa [handledBind_pressed, mainMenu] using hring rfl
  obtain rfl : j = 1 := by omega
  exact hdrives

end Grzetris
