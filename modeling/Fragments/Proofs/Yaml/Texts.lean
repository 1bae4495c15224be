import Fragments.Proofs.Yaml.DoubleText
import Fragments.Proofs.Yaml.PlainText
import Fragments.Proofs.Yaml.SingleText
import Fragments.Proofs.Yaml.Steps

namespace Fragments.Yaml

open Cursor

/-- What a text is read as, given the column of the lines it is broken to. -/
def heardText (indent : Nat) (text : String) : String :=
  match Style.ofText false text with
  | .plain => text
  | .single => String.ofList (heardSingle text.toList)
  | .double => String.ofList (heardDouble true indent text.toList)

def textToken (indent : Nat) (text : String) : Token :=
  .scalar (heardText indent text) (Style.ofText false text == .plain)

namespace Scanner

variable (out : List Char) (tokens : List Token) (indent : Int)
  (indents : List Int) (allowed : Bool)

variable {c : Char} {rest : List Char}

theorem isIndicator_eq (hmark : Style.isLeadingMark c = false) :
    isIndicator c = (c == '-' || c == '?' || c == ':') := by
  simp only [Style.isLeadingMark, Bool.or_eq_false_iff, List.contains_eq_mem,
    decide_eq_false_iff_not] at hmark
  simp at hmark
  simp [isIndicator, hmark, Bool.or_assoc, beq_eq_decide]

theorem fetch_plain (hmark : Style.isLeadingMark c = false)
    (hends : endsToken c = false)
    (hnext : (c == '-' || c == '?' || c == ':') = true →
      endsToken (rest.headD endMark) = false)
    (hmarks : columnOf out = 0 → Scan.Unmarked (c :: rest)) :
    (behind out (c :: rest) tokens indent indents allowed).fetch =
      (behind out (c :: rest) tokens indent indents allowed).fetchPlain := by
  have hpeek :
      (behind out (c :: rest) tokens indent indents allowed).cursor.peek
        0 = c := rfl
  have hafter :
      (behind out (c :: rest) tokens indent indents allowed).cursor.peek 1 =
      rest.headD endMark := by
    cases rest <;> rfl
  have hatMark (mark : Char) (hend : mark ≠ endMark)
      (hmarked : columnOf out = 0 →
      ¬List.replicate 3 mark <+: c :: rest) :
      ((behind out (c :: rest) tokens indent indents allowed).cursor.column ==
        0 &&
        (behind out (c :: rest) tokens indent indents allowed).cursor.atMark
          mark) = false := by
    rw [Bool.and_eq_false_iff]
    by_cases hzero : columnOf out = 0
    · exact .inr (Scan.atMark_behind hend (hmarked hzero))
    · exact .inl (beq_eq_false_iff_ne.mpr hzero)
  have hdash := hatMark '-' (by decide) fun hzero => (hmarks hzero).1
  have hdot := hatMark '.' (by decide) fun hzero => (hmarks hzero).2
  have hword {mark : Char} (hmark : mark = '-' ∨ mark = '?' ∨ mark = ':') :
      (c == mark && endsToken (rest.headD endMark)) = false := by
    rw [Bool.and_eq_false_iff]
    by_cases hc : c = mark
    · subst hc
      exact .inr (hnext (by simpa [or_assoc] using hmark))
    · exact .inl (beq_eq_false_iff_ne.mpr hc)
  have hplain : (behind out (c :: rest) tokens indent indents allowed).atPlain =
      true := by
    have hflow :
        ((behind out (c :: rest) tokens indent indents allowed).brackets == 0) =
          true := rfl
    rw [atPlain, hpeek, hafter, hends, isIndicator_eq hmark, hflow]
    cases hc : (c == '-' || c == '?' || c == ':') with
    | false => rfl
    | true =>
        rw [hnext hc]
        simpa [or_assoc] using hc
  have hinFlow :
      ((behind out (c :: rest) tokens indent indents allowed).brackets != 0) =
        false := rfl
  have hleading := hmark
  simp [Style.isLeadingMark] at hleading
  simp only [fetch, hpeek, hafter, hinFlow, hdash, hdot, hplain,
    hword (.inl rfl), hword (.inr (.inl rfl)), hword (.inr (.inr rfl)),
    Bool.false_or, Bool.false_eq_true, if_false, if_true]
  simp [hleading]

end Scanner

open Scanner

/-- What follows a node: lines further left, or the end. -/
structure Follows (column : Nat) (rest : List Char) : Prop where
  starts : Starts rest
  unmarked : Scan.Unmarked (List.replicate column ' ' ++ rest)

/-- What is written from a place on is read as tokens, given what they belong to
at the column `indent`. -/
structure Reads (indent : Nat) (out chunk : List Char)
    (found : List Token) : Prop where
  nonempty : chunk ≠ []
  starts : Starts chunk
  leads : ∀ {column : Nat} {rest : List Char}, column ≤ indent →
    Follows column rest →
      ∀ (tokens : List Token) (indents : List Int) (allowed : Bool),
        Leads (behind out (chunk ++ '\n' :: (List.replicate column ' ' ++ rest))
          tokens indent indents allowed)
        (behind (Pen.line column (chunk.reverse ++ out)) rest
          (found.reverse ++ tokens) indent indents true)

section

variable {indent : Nat} {out : List Char}

theorem ne_nil_of_columnOf (hcolumn : indent < columnOf out) : out ≠ [] := by
  rintro rfl
  simp at hcolumn

theorem noted_free (hcolumn : indent < columnOf out) (tokens : List Token)
    (allowed : Bool) :
    ∀ key ∈ noted out tokens indent allowed,
      key.2.required = false ∧ key.2.line = out.countP isBreak ∧
        key.2.index = out.length := by
  intro key hkey
  cases allowed with
  | false => cases hkey
  | true =>
      obtain rfl := List.mem_singleton.mp hkey
      exact ⟨beq_eq_false_iff_ne.mpr (by omega), rfl, rfl⟩

theorem countP_line_lt (column : Nat) (chunk out : List Char) :
    out.countP isBreak < (Pen.line column (chunk ++ out)).countP isBreak := by
  have hnewline : isBreak '\n' = true := rfl
  simp [Pen.line, hnewline]
  omega

theorem reads_quoted (hcolumn : indent < columnOf out) {mark : Char}
    {chunk : List Char} {step : Scan Token} {token : Token}
    (hstarts : Starts (mark :: chunk))
    (hfetch :
      ∀ (rest : List Char) (tokens : List Token) (indents : List Int)
      (allowed : Bool),
      (behind out (mark :: rest) tokens indent indents allowed).fetch =
        (behind out (mark :: rest) tokens indent indents allowed).fetchNode
          step)
    (hstep : ∀ rest, step (.behind out (mark :: chunk ++ '\n' :: rest)) =
      .ok (token, .behind ((mark :: chunk).reverse ++ out) ('\n' :: rest))) :
    Reads indent out (mark :: chunk) [token] := by
  refine ⟨by
    simp, hstarts, fun {column rest} hleft hrest tokens indents allowed => ?_⟩
  have hraw := fetchNode_behind (hstep (List.replicate column ' ' ++ rest))
    tokens indent indents allowed
  refine Leads.step (unwind_of_le (by simp; omega)) ?_
    ((hfetch _ _ _ _).trans hraw)
    (rests_line (by simp) rfl rfl (fun key hkey => ?_) hrest.starts)
  · simp
    omega
  · obtain ⟨hfree, hline, -⟩ := noted_free hcolumn tokens allowed key hkey
    exact ⟨hfree, by rw [hline, List.countP_append]; exact Nat.le_add_left _ _⟩

theorem plain_starts {chars later : List Char} {first : Char}
    {letters : List Char} (hplain : Style.allowsPlain chars = true)
    (hchars : chars = first :: letters ++ later)
    (hlater : ∀ c ∈ later.head?, c = ' ') :
    Style.isLeadingMark first = false ∧ endsToken first = false ∧
      isBreak first = false ∧
        (∀ rest : List Char,
          (first == '-' || first == '?' || first == ':') = true →
        endsToken ((letters ++ rest).headD endMark) = false) := by
  obtain ⟨hvisible, hindicator, hblank, -⟩ := Style.allowsPlain_iff.mp hplain
  subst hchars
  obtain ⟨hspecial, hbreak⟩ := hvisible first (by simp)
  simp only [List.cons_append, Style.hasIndicator, Bool.or_eq_false_iff]
    at hindicator
  obtain ⟨⟨⟨-, hmark⟩, hword⟩, -⟩ := hindicator
  refine ⟨hmark, ?_,
    (isBreak_eq (Style.tame_of_isSpecial hspecial)).trans hbreak,
    fun rest hfirst => ?_⟩
  · rw [Style.endsToken_eq hspecial hbreak, beq_eq_false_iff_ne]
    exact hblank first rfl
  · have hends : Style.wordEnds (letters ++ later) = false := by
      have hfirst : (first == '?' || first == ':' || first == '-') = true := by
        simpa [or_comm, or_assoc, or_left_comm] using hfirst
      simpa [hfirst] using hword
    cases letters with
    | nil =>
        cases later with
        | nil => cases hends
        | cons c more =>
            rw [hlater c rfl] at hends
            cases hends
    | cons d others => exact hends

theorem reads_plain (hcolumn : indent < columnOf out) {chars : List Char}
    (hplain : Style.allowsPlain chars = true) (hnonempty : chars ≠ [])
    (fresh : Bool) :
    ∃ chunk, writePlain true (indent + 2) chars (.behind out true fresh) =
        .behind (chunk.reverse ++ out) false false ∧
      Reads indent out chunk [.scalar (String.ofList chars) true] := by
  have hparent : (indent : Int) < (indent + 2 : Nat) := by omega
  obtain ⟨chunk, hwritten,
      ⟨word, more, later, hword, rfl, hchars, hlater⟩, hscan⟩ :=
    scanPlain_written true hparent (by omega) hplain hnonempty out
      fresh (by omega)
  obtain ⟨first, letters, rfl⟩ := List.exists_cons_of_ne_nil hword
  obtain ⟨hmark, hends, hbreak, hnext⟩ := plain_starts hplain hchars hlater
  have hstarts : Starts (first :: letters ++ more) := by
    rintro _ ⟨⟩
    refine ⟨?_, ?_, hbreak⟩
    · rintro rfl
      cases hends
    · rintro rfl
      exact absurd hmark (by decide)
  refine ⟨first :: letters ++ more, hwritten, by simp, hstarts,
    fun {column rest} hleft hrest tokens indents allowed => ?_⟩
  have hfollows :
      EndsPlain ((indent : Int) + 1) ((first :: letters ++ more).reverse ++ out)
        ('\n' :: (List.replicate column ' ' ++ rest)) true
      (.behind (Pen.line column ((first :: letters ++ more).reverse ++ out))
        rest) := by
    have hsolid : Solid rest := fun c hc =>
      ⟨(hrest.starts c hc).1, (hrest.starts c hc).2.2⟩
    refine ⟨rfl, [' '], scanPlainBlanks_line hsolid hrest.unmarked, ?_⟩
    have hcolumn :
        columnOf (Pen.line column ((first :: letters ++ more).reverse ++ out)) =
          column :=
      Pen.columnOf_line column
    rw [Cursor.behind_column, hcolumn]
    simp
    omega
  have hraw := fetchPlain_behind (hscan hfollows) tokens indents allowed
  have hfetch : (behind out (first :: (letters ++ (more ++
      '\n' :: (List.replicate column ' ' ++ rest)))) tokens indent indents
      allowed).fetch = _ :=
    fetch_plain out tokens indent indents allowed hmark hends
      (hnext _) (by omega)
  simp only [List.cons_append, List.append_assoc] at hraw hfetch ⊢
  refine Leads.step (unwind_of_le (by simp; omega)) ?_ (hfetch.trans hraw)
    (rests_passed (by simp [Pen.line]) rfl (fun key hkey => ?_) hrest.starts)
  · simp
    omega
  · obtain ⟨hfree, hline, -⟩ := noted_free hcolumn tokens allowed key hkey
    exact ⟨hfree, by rw [hline]; exact countP_line_lt _ _ _⟩

theorem Style.ofText_eq_plain {key : Bool} {text : String}
    (hstyle : Style.ofText key text = .plain) :
    Tag.ofPlain text = .str ∧ Style.allowsPlain text.toList = true ∧
      text.toList ≠ [] := by
  simp only [Style.ofText] at hstyle
  split at hstyle
  · next hplain =>
      simp only [Bool.and_eq_true, beq_iff_eq] at hplain
      refine ⟨hplain.1.1, hplain.1.2, fun hnil => ?_⟩
      have hnull : Tag.ofPlain text = .null := by
        rw [Tag.ofPlain, hnil]
        rfl
      rw [hnull] at hplain
      cases hplain.1.1
  · split at hstyle <;> cases hstyle

theorem Style.ofText_eq_single {key : Bool} {text : String}
    (hstyle : Style.ofText key text = .single) :
    Style.allowsSingle text.toList = true ∧
      (key && Style.isMultiline text.toList) = false := by
  simp only [Style.ofText] at hstyle
  split at hstyle
  · cases hstyle
  · split at hstyle
    · next hsingle => simpa only [Bool.and_eq_true, Bool.not_eq_true']
        using hsingle
    · cases hstyle

theorem Style.isSpecial_of_single {key : Bool} {text : String}
    (hstyle : Style.ofText key text = .single) :
    ∀ c ∈ text.toList, Style.isSpecial c = false := by
  have hsingle := (Style.ofText_eq_single hstyle).1
  simp only [Style.allowsSingle, Bool.and_eq_true, Bool.not_eq_true',
    List.any_eq_false, Bool.not_eq_true] at hsingle
  exact hsingle.2

theorem map_apply {step : Scan α} {cursor after : Cursor} {value : α}
    (f : α → β) (hstep : step cursor = .ok (value, after)) :
    step.map f cursor = .ok (f value, after) := by
  show step cursor >>= _ = _
  rw [hstep]
  rfl

theorem reads_text (hcolumn : indent + 2 ≤ columnOf out) (text : String)
    (fresh : Bool) :
    ∃ chunk, writeText false (indent + 2) text (.behind out true fresh) =
        .behind (chunk.reverse ++ out) false false ∧
      Reads indent out chunk [textToken (indent + 2) text] := by
  unfold writeText textToken heardText
  cases hstyle : Style.ofText false text with
  | plain =>
      obtain ⟨-, hplain, hnonempty⟩ := Style.ofText_eq_plain hstyle
      have hdeeper : indent < columnOf out := by omega
      have hreads := reads_plain hdeeper hplain hnonempty fresh
      rwa [String.ofList_toList] at hreads
  | single =>
      obtain ⟨body, hwritten, hscan⟩ :=
        scanQuoted_single true (Nat.succ_pos (indent + 1))
          (Style.ofText_eq_single hstyle).1 out fresh
      refine ⟨_, hwritten,
        reads_quoted (by omega) ?_ (fun _ _ _ _ => fetch_single rfl) fun rest =>
          map_apply _ (hscan (by simp))⟩
      rintro _ ⟨⟩
      decide
  | double =>
      obtain ⟨body, hwritten, hscan⟩ :=
        scanQuoted_double true (Nat.succ_pos (indent + 1)) text.toList out fresh
          (fun _ => by omega)
      refine ⟨_, hwritten,
        reads_quoted (by omega) ?_ (fun _ _ _ _ => fetch_double rfl) fun rest =>
          map_apply _ (hscan _)⟩
      rintro _ ⟨⟩
      decide

theorem reads_pair (hcolumn : indent < columnOf out) {opening closing : Char}
    {first second : Token} (hpair : IsPair opening first closing second) :
    Reads indent out [opening, closing] [first, second] := by
  have hmarks : Inline opening ∧ Inline closing ∧ opening ≠ ' ' ∧
      opening ≠ '#' ∧ closing ≠ ' ' ∧ closing ≠ '#' := by
    cases hpair <;> decide
  obtain ⟨hopening, hclosing, hspace, hhash, hspace', hhash'⟩ := hmarks
  refine ⟨by
    simp, ?_, fun {column rest} hleft hrest tokens indents allowed => ?_⟩
  · rintro _ ⟨⟩
    exact ⟨hspace, hhash, hopening.2⟩
  have hcolumn' : (indent : Int) ≤ columnOf (opening :: out) := by
    rw [columnOf_cons hopening.2]
    omega
  have hkeys : (noted out tokens indent allowed).lookup 1 = none := by
    cases allowed <;> rfl
  have hopen := fetch_opening_behind hpair out
    (closing :: '\n' :: (List.replicate column ' ' ++ rest)) tokens indent
    indents allowed
  have hclose := fetch_closing_behind hpair (opening :: out)
    ('\n' :: (List.replicate column ' ' ++ rest)) (first :: tokens) indent
    indents hkeys
  refine (Leads.step (unwind_of_le (by simp; omega)) ?_ hopen
    (rests_key (by simp) rfl (fun key hkey => ?_) ?_)).trans
    (Leads.step (unwind_of_le hcolumn') ?_ hclose
      (rests_line (by simp) rfl rfl (fun key hkey => ?_) hrest.starts))
  · simp
  · obtain ⟨-, hline, hindex⟩ := noted_free hcolumn tokens allowed key hkey
    refine ⟨?_, by simp [hindex]⟩
    rw [hline, List.countP_cons_of_neg (by simp [hopening.2])]
  · rintro _ ⟨⟩
    exact ⟨hspace', hhash', hclosing.2⟩
  · simp
    omega
  · obtain ⟨hfree, hline, -⟩ := noted_free hcolumn tokens allowed key hkey
    refine ⟨hfree, ?_⟩
    rw [hline]
    exact (List.sublist_append_right [closing, opening] out).countP_le

end

end Fragments.Yaml
