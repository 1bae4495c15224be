import Fragments.Proofs.Yaml.ScanFaults
import Fragments.Yaml.Read

namespace Fragments.Yaml

/-- A text that is malformed or that nests too deep. -/
inductive Refused : Trouble → Prop
  | malformed : Refused .malformed
  | tooNested : Refused tooNested

theorem Refused.within {trouble : Trouble} (hrefused : Refused trouble)
    (allowed : Fault → Prop) : trouble.Within allowed := by
  cases hrefused with
  | malformed => trivial
  | tooNested => exact .inl rfl

namespace Tree

/-- The tokens are refused, or they end where something stopped them. -/
inductive Stops (stop : Trouble) : Trouble → Prop
  | refused {trouble : Trouble} (hrefused : Refused trouble) :
      Stops stop trouble
  | stopped : Stops stop stop

theorem Stops.malformed {stop : Trouble} : Stops stop .malformed :=
  .refused .malformed

theorem Stops.tooNested {stop : Trouble} : Stops stop tooNested :=
  .refused .tooNested

/-- Reading stops, or leaves tokens behind which nothing of `all` is missing. -/
abbrev Leaves (stop : Trouble) (all : List Token)
    (outcome : Except Trouble (α × List Token)) : Prop :=
  Yields (Stops stop) (fun found => found.2 <:+ all) outcome

section

variable {all tokens rest : List Token} {token : Token}

theorem suffix_of_cons (hleft : token :: rest <:+ all) : rest <:+ all :=
  (List.suffix_cons token rest).trans hleft

theorem leaves_properties (setting : Setting) (hleft : tokens <:+ all) :
    Leaves setting.stop all (properties setting tokens) := by
  have htext (handle : Option String) (suffix : String) :
      Yields (Stops setting.stop) (fun _ => True)
        (tagText setting.handles handle suffix) := by
    unfold tagText
    split
    · trivial
    · split
      · trivial
      · exact .malformed
  unfold properties
  split
  · exact (htext _ _).bind fun _ _ => suffix_of_cons (suffix_of_cons hleft)
  · exact (htext _ _).bind fun _ _ => suffix_of_cons (suffix_of_cons hleft)
  · exact suffix_of_cons hleft
  · exact .stopped
  · exact (htext _ _).bind fun _ _ => suffix_of_cons hleft
  · exact hleft

theorem yields_afterComma (setting : Setting) (first : Bool)
    (hleft : tokens <:+ all) :
    Yields (Stops setting.stop) (· <:+ all)
    (afterComma setting first tokens) := by
  unfold afterComma
  split
  · exact .stopped
  · exact .ite hleft (suffix_of_cons hleft)
  · exact .ite hleft .malformed

/-- What reading nodes and their parts leaves with some fuel. -/
structure LeavesAt (all : List Token) (fuel : Nat) : Prop where
  node : ∀ setting block level {tokens}, tokens <:+ all →
    Leaves setting.stop all (readNode setting block level fuel tokens)
  optional : ∀ setting block level ends {tokens}, tokens <:+ all →
    Leaves setting.stop all (readOptional setting block level ends fuel tokens)
  blockItems : ∀ setting {tokens}, tokens <:+ all →
    Leaves setting.stop all (readBlockItems setting fuel tokens)
  levelItems : ∀ setting {tokens}, tokens <:+ all →
    Leaves setting.stop all (readLevelItems setting fuel tokens)
  blockEntries : ∀ setting {tokens}, tokens <:+ all →
    Leaves setting.stop all (readBlockEntries setting fuel tokens)
  entryValue : ∀ setting block ends {tokens}, tokens <:+ all →
    Leaves setting.stop all (readEntryValue setting block ends fuel tokens)
  flowItems : ∀ setting first {tokens}, tokens <:+ all →
    Leaves setting.stop all (readFlowItems setting first fuel tokens)
  flowEntries : ∀ setting first {tokens}, tokens <:+ all →
    Leaves setting.stop all (readFlowEntries setting first fuel tokens)

namespace LeavesAt

variable {fuel : Nat} (ih : LeavesAt all fuel) (hleft : tokens <:+ all)
  (setting : Setting)
include ih hleft

theorem readNode (block level : Bool) :
    Leaves setting.stop all
      (readNode setting block level (fuel + 1) tokens) := by
  unfold Tree.readNode
  split
  · exact suffix_of_cons hleft
  · refine (leaves_properties _ hleft).bind fun ⟨props, left⟩ hleft => ?_
    have hrest {token : Token} {rest : List Token}
        (heq : left = token :: rest) :
        rest <:+ all := suffix_of_cons (heq ▸ hleft)
    dsimp only at hleft ⊢
    split
    · exact .stopped
    · exact hrest rfl
    · exact .below .tooNested <|
        (ih.flowItems setting.inner _ (hrest rfl)).bind fun _ hafter => hafter
    · exact .below .tooNested <|
        (ih.flowEntries setting.inner _ (hrest rfl)).bind fun _ hafter => hafter
    · refine .ite (.below .tooNested <|
        (ih.levelItems setting.inner hleft).bind fun _ hafter => hafter) ?_
      refine .ite (.below .tooNested <|
        (ih.blockItems setting.inner (hrest rfl)).bind fun _ hafter => hafter)
        ?_
      refine .ite (.below .tooNested <|
        (ih.blockEntries setting.inner (hrest rfl)).bind fun _ hafter => hafter)
        ?_
      exact .ite hleft .malformed

theorem readOptional (block level : Bool) (ends : List Token) :
    Leaves setting.stop all
      (readOptional setting block level ends (fuel + 1) tokens) :=
  .ite hleft (.ite .stopped (ih.node setting _ _ hleft))

theorem readBlockItems :
    Leaves setting.stop all (readBlockItems setting (fuel + 1) tokens) := by
  unfold Tree.readBlockItems
  split
  · exact .stopped
  · exact suffix_of_cons hleft
  · exact (ih.optional setting _ _ _ (suffix_of_cons hleft)).bind fun _ hitem =>
      (ih.blockItems setting hitem).bind fun _ hlast => hlast
  · exact .malformed

theorem readLevelItems :
    Leaves setting.stop all (readLevelItems setting (fuel + 1) tokens) := by
  unfold Tree.readLevelItems
  split
  · exact .stopped
  · exact (ih.optional setting _ _ _ (suffix_of_cons hleft)).bind fun _ hitem =>
      (ih.levelItems setting hitem).bind fun _ hlast => hlast
  · exact hleft

theorem readBlockEntries :
    Leaves setting.stop all (readBlockEntries setting (fuel + 1) tokens) := by
  unfold Tree.readBlockEntries
  split
  · exact .stopped
  · exact suffix_of_cons hleft
  · exact (ih.optional setting _ _ _ (suffix_of_cons hleft)).bind fun _ hkey =>
      (ih.entryValue setting _ _ hkey).bind fun _ hvalue =>
        (ih.blockEntries setting hvalue).bind fun _ hlast => hlast
  · exact .malformed

theorem readEntryValue (block : Bool) (ends : List Token) :
    Leaves setting.stop all
      (readEntryValue setting block ends (fuel + 1) tokens) := by
  unfold Tree.readEntryValue
  split
  · exact .stopped
  · exact ih.optional setting _ _ _ (suffix_of_cons hleft)
  · exact hleft

theorem readFlowItems (first : Bool) :
    Leaves setting.stop all
      (readFlowItems setting first (fuel + 1) tokens) := by
  unfold Tree.readFlowItems
  split
  · exact suffix_of_cons hleft
  · refine (yields_afterComma _ _ hleft).bind fun start hstart => ?_
    split
    · exact .stopped
    · exact suffix_of_cons hstart
    · exact .below .tooNested <|
        (ih.optional setting.inner _ _ _ (suffix_of_cons hstart)).bind
          fun _ hkey =>
            (ih.entryValue setting.inner _ _ hkey).bind fun _ hvalue =>
              (ih.flowItems setting _ hvalue).bind fun _ hlast => hlast
    · exact (ih.node setting _ _ hstart).bind fun _ hitem =>
        (ih.flowItems setting _ hitem).bind fun _ hlast => hlast

theorem readFlowEntries (first : Bool) :
    Leaves setting.stop all
      (readFlowEntries setting first (fuel + 1) tokens) := by
  unfold Tree.readFlowEntries
  split
  · exact suffix_of_cons hleft
  · refine (yields_afterComma _ _ hleft).bind fun start hstart => ?_
    split
    · exact .stopped
    · exact suffix_of_cons hstart
    · exact (ih.optional setting _ _ _ (suffix_of_cons hstart)).bind
        fun _ hkey =>
          (ih.entryValue setting _ _ hkey).bind fun _ hvalue =>
            (ih.flowEntries setting _ hvalue).bind fun _ hlast => hlast
    · exact (ih.node setting _ _ hstart).bind fun _ hkey =>
        (ih.flowEntries setting _ hkey).bind fun _ hlast => hlast

end LeavesAt

theorem leavesAt (all : List Token) (fuel : Nat) : LeavesAt all fuel := by
  induction fuel with
  | zero => constructor <;> intros <;> exact .malformed
  | succ fuel ih =>
      exact {
        node := fun setting block level _ hleft =>
          ih.readNode hleft setting block level
        optional := fun setting block level ends _ hleft =>
          ih.readOptional hleft setting block level ends
        blockItems := fun setting _ hleft => ih.readBlockItems hleft setting
        levelItems := fun setting _ hleft => ih.readLevelItems hleft setting
        blockEntries := fun setting _ hleft => ih.readBlockEntries hleft setting
        entryValue := fun setting block ends _ hleft =>
          ih.readEntryValue hleft setting block ends
        flowItems := fun setting first _ hleft =>
          ih.readFlowItems hleft setting first
        flowEntries := fun setting first _ hleft =>
          ih.readFlowEntries hleft setting first }

theorem leaves_readDirectives (stop : Trouble) (header : Header)
    (hleft : tokens <:+ all) :
    Leaves stop all (readDirectives header tokens) := by
  fun_induction readDirectives header tokens with
  | case1 | case3 => exact .malformed
  | case2 _ _ _ _ ih | case4 _ _ _ _ _ ih | case5 _ _ ih =>
      exact ih (suffix_of_cons hleft)
  | case6 => exact hleft

theorem leaves_readRoot (setting : Setting) (fuel : Nat)
    (hleft : tokens <:+ all) :
    Leaves setting.stop all (readRoot setting fuel tokens) := by
  unfold readRoot
  split
  · exact .stopped
  · exact hleft
  · exact hleft
  · exact hleft
  · exact hleft
  · exact (leavesAt _ _).node setting _ _ hleft

theorem yields_checkEnd (stop : Trouble) (hleft : tokens <:+ all) :
    Yields (Stops stop) (fun _ => .streamEnd ∈ all) (checkEnd stop tokens) := by
  unfold checkEnd
  split
  · exact .stopped
  · next heq =>
      exact hleft.mem ((List.dropWhile_suffix _).mem (heq ▸ List.mem_cons_self))
  · refine (leaves_readDirectives stop _ List.suffix_rfl).bind fun found _ => ?_
    show Stops stop (if _ then _ else _)
    split
    · exact .stopped
    · exact .malformed

end

/-- Tokens that are a document have the end of the stream among them. -/
theorem yields_ofTokens (tokens : List Token) (stop : Trouble) :
    Yields (Stops stop) (fun _ => .streamEnd ∈ tokens)
    (ofTokens tokens stop) := by
  have hend (parts : Tree × List Token) (hleft : parts.2 <:+ tokens) :
      Yields (Stops stop) (fun _ => .streamEnd ∈ tokens) (do
        checkEnd stop parts.2
        Except.ok (some parts.1)) := (yields_checkEnd stop hleft).bind
          fun _ hmem => hmem
  unfold ofTokens
  dsimp only
  split
  · exact List.mem_cons_self
  · split
    case h_3 =>
      exact ((leavesAt _ _).node ⟨standardHandles, stop, nestingLimit⟩ _ _
        List.suffix_rfl).bind hend
    -- A document with directives or a start mark
    all_goals
      refine Yields.bind ((leaves_readDirectives _ _ List.suffix_rfl).bind
        fun found hafter => ?_) hend
      split
      · exact .stopped
      · next hfound =>
          rw [hfound] at hafter
          exact leaves_readRoot ⟨_, stop, nestingLimit⟩ _
            (suffix_of_cons hafter)
      · exact .malformed

end Tree

namespace Graph

abbrev OnlyMalformed (outcome : Except Trouble α) : Prop :=
  FailsOnly (· = .malformed) outcome

theorem onlyMalformed_add (draft : Draft) (anchor : Option String)
    (node : GraphNode) :
    OnlyMalformed (draft.add anchor node) := by
  unfold Draft.add
  split
  · exact .ok _
  · exact .ite (.error rfl) (.ok _)

mutual

theorem onlyMalformed_addTree (draft : Draft) :
    ∀ tree : Tree, OnlyMalformed (addTree draft tree)
  | .alias name => by
      unfold addTree
      split
      · exact .ok _
      · exact .error rfl
  | .scalar _ _ _ => onlyMalformed_add _ _ _
  | .sequence _ _ items =>
      (onlyMalformed_add _ _ _).bind fun _ _ =>
        (onlyMalformed_addItems _ items).bind fun _ _ => .ok _
  | .mapping _ _ entries =>
      (onlyMalformed_add _ _ _).bind fun _ _ =>
        (onlyMalformed_addEntries _ entries).bind fun _ _ => .ok _

theorem onlyMalformed_addItems (draft : Draft) :
    ∀ items : List Tree, OnlyMalformed (addItems draft items)
  | [] => .ok _
  | item :: rest =>
      (onlyMalformed_addTree _ item).bind fun _ _ =>
        (onlyMalformed_addItems _ rest).bind fun _ _ => .ok _

theorem onlyMalformed_addEntries (draft : Draft) :
    ∀ entries : List (Tree × Tree), OnlyMalformed (addEntries draft entries)
  | [] => .ok _
  | (key, value) :: rest =>
      (onlyMalformed_addTree _ key).bind fun _ _ =>
        (onlyMalformed_addTree _ value).bind fun _ _ =>
          (onlyMalformed_addEntries _ rest).bind fun _ _ => .ok _

end

/-- A graph whose nodes are those of `graph`, but for entries that were brought
in and for keys that became texts. -/
def Derived (graph after : Graph) : Prop :=
  ∀ i, ((after.node i).tag = (graph.node i).tag ∨ (after.node i).tag = .str) ∧
    ∀ text, (after.node i).content = .scalar text →
      (graph.node i).content = .scalar text

theorem Derived.refl (graph : Graph) : Derived graph graph :=
  fun _ => ⟨.inl rfl, fun _ heq => heq⟩

theorem Derived.trans {graph middle after : Graph}
    (hfirst : Derived graph middle) (hsecond : Derived middle after) :
    Derived graph after := by
  refine fun i =>
    ⟨?_, fun text heq => (hfirst i).2 text ((hsecond i).2 text heq)⟩
  rcases (hsecond i).1 with htag | htag
  · rw [htag]
    exact (hfirst i).1
  · exact .inr htag

end Graph

/-- The text is no value of the kind. -/
inductive Misfit : Tag → String → Fault → Prop
  | bool {text : String} {fault : Fault}
      (hread : readBool text = .error fault) :
      Misfit .bool text fault
  | int {text : String} {fault : Fault} (hread : readInt text = .error fault) :
      Misfit .int text fault
  | float {text : String} {fault : Fault}
      (hread : readFloatNode text = .error fault) :
      Misfit .float text fault
  | timestamp {text : String} {fault : Fault}
      (hread : readTimestamp text = .error fault) :
      Misfit .timestamp text fault

namespace Graph

theorem misfit_of_readAtom_eq {tag : Tag} {text : String} {fault : Fault}
    (hread : readAtom tag text = .error (.fault fault)) :
    Misfit tag text fault := by
  have hown {outcome : Except Fault Scalar}
      (heq : orTrouble outcome = .error (.fault fault)) :
      outcome = .error fault := by
    cases outcome with
    | ok value => cases heq
    | error found => cases heq; rfl
  have hmapped {α : Type} {outcome : Except Fault α} {change : α → Scalar}
      (heq : orTrouble (outcome.map change) = .error (.fault fault)) :
      outcome = .error fault := by
    cases outcome with
    | ok value => cases heq
    | error found => cases heq; rfl
  unfold readAtom at hread
  cases tag with
  | bool => exact .bool (hmapped hread)
  | int => exact .int (hmapped hread)
  | float => exact .float (hmapped hread)
  | timestamp => exact .timestamp (hown hread)
  | binary =>
      simp only [readBinary] at hread
      split at hread
      · cases hread
      · split at hread <;> cases hread
  | null | str | omap | pairs | set | seq | map | merge | value | unknown =>
      cases hread

/-- The faults of a document's scalars: a text does not fit the kind of its
node, or a date is written as a mapping. -/
inductive Misfits (graph : Graph) : Fault → Prop
  | text {i j : Nat} {text : String} {fault : Fault}
      (htext : (graph.node j).content = .scalar text)
      (hmisfit : Misfit (graph.node i).tag text fault) : Misfits graph fault
  | date {i : Nat} (htag : (graph.node i).tag = .timestamp) :
      Misfits graph .wrongType

theorem yields_textOf (graph : Graph) (levels i : Nat) :
    Yields Refused (fun text => ∃ j, (graph.node j).content = .scalar text)
      (graph.textOf levels i) := by
  induction levels generalizing i with
  | zero => exact .tooNested
  | succ levels ih =>
      unfold textOf
      split
      · next htext => exact ⟨i, htext⟩
      · exact .malformed
      · split
        · exact ih _
        · exact .malformed

theorem Derived.atom {graph after : Graph} (hderived : Derived graph after)
    (i : Nat) :
    FailsOnly (Trouble.Within graph.Misfits) (after.atom i) := by
  refine FailsOnly.bind ((after.yields_textOf nestingLimit i).failsOnly.mono
    fun _ hrefused => hrefused.within _) fun text hfound => ?_
  have htext := after.yields_textOf nestingLimit i
  rw [hfound] at htext
  obtain ⟨j, hj⟩ := htext
  have htag {tag : Tag} (heq : (after.node i).tag = tag) (hne : tag ≠ .str) :
      (graph.node i).tag = tag := by
    rcases (hderived i).1 with hsame | hstr
    · rw [← hsame, heq]
    · exact absurd (heq.symm.trans hstr) hne
  split
  · next hdate =>
      rw [Bool.and_eq_true, beq_iff_eq] at hdate
      exact .error (.inr (.date (htag hdate.1 (by decide))))
  · intro trouble hatom
    cases trouble with
    | malformed => trivial
    | fault found =>
        have hmisfit := misfit_of_readAtom_eq hatom
        have hown : (graph.node i).tag = (after.node i).tag := by
          refine htag rfl fun hstr => ?_
          rw [hstr] at hmisfit
          cases hmisfit
        exact .inr (.text ((hderived j).2 text hj) (hown ▸ hmisfit))

end Graph

namespace Works

variable {graph : Graph}

end Works

/-- The faults of a text: it cannot be cut into tokens, or a scalar of it is no
value of the kind of its node. -/
inductive Faults (chars : List Char) (fault : Fault) : Prop
  | cut (hcut : (tokenize chars).2 = some (.fault fault))
      (huncuttable : Uncuttable fault)
  | scalar {tree : Tree} {root : Nat} {graph : Graph}
      (htree : parse chars = .ok (some tree))
      (hgraph : Graph.ofTree tree = .ok (root, graph))
      (hmisfit : graph.Misfits fault)

end Fragments.Yaml
