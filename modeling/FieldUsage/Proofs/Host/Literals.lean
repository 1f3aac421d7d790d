import FieldUsage.Proofs.Host.Functions

/-!
Templates in literals and markup. A tagged template comes before the ones in its holes, and its tag
is a bare name, so nothing of the tag stands in front of it.
-/

namespace FieldUsage.Host

variable {text : List Char} {ordered : Prop}

open Reader TypeGrammar

instance : Carries text (Literal.Item text) := ⟨fun item => item.node.templates⟩
instance : Carries text (Literal.Items text) := ⟨Literal.Items.templates⟩

@[simp] theorem carried_item (item : Literal.Item text) :
    carried text item = item.node.templates := rfl
@[simp] theorem carried_items (items : Literal.Items text) :
    carried text items = items.templates := rfl

/-- A template that begins behind all others. -/
theorem Passed.push {low high : Nat} {found : Found text} (passed : Passed ordered low found)
    {template : Template text} (begins : low ≤ template.start.offset)
    (ends : template.stop < high) : Passed ordered high (found ++ [template]) := by
  have starts : template.start.offset ≤ template.stop := Nat.le_add_right _ _
  constructor
  · intro other member
    rcases List.mem_append.1 member with inside | last
    · have := passed.ends other inside
      omega
    · obtain rfl := List.mem_singleton.1 last
      exact ends
  · refine List.pairwise_append.2 ⟨passed.clear, List.pairwise_singleton _ _, ?_⟩
    intro other inside last member
    obtain rfl := List.mem_singleton.1 member
    exact .inl (Nat.lt_of_lt_of_le (passed.ends other inside) begins)

/-- The template at a cursor begins right behind its backquote and ends where the segment does. -/
theorem Template.at?_eq_some {tag : Word text} {cursor : Cursor text} {template : Template text}
    (h : Template.at? tag cursor = some template) :
    cursor.rest.head? = some '`' ∧ template.start = cursor.next ∧
      segment? cursor.next.rest = some (template.raw, template.interpolated) := by
  unfold Template.at? at h
  split at h
  · rename_i rest begins
    split at h
    · rename_i raw hole found
      obtain rfl := Option.some.inj h
      exact ⟨by simp [begins], rfl, found⟩
    · cases h
  · cases h

/-- The template at the current token is the segment behind that token. -/
theorem Template.at?_tokenEnd {context : Context} {state : State text}
    (sound : Sound ordered context state) {tag : Word text} {template : Template text}
    (h : Template.at? tag state.cursor = some template) :
    template.start = state.tokenEnd ∧
      segment? state.tokenEnd.rest = some (template.raw, template.interpolated) := by
  obtain ⟨opens, begins, cut⟩ := Template.at?_eq_some h
  have same : state.tokenEnd = state.cursor.next := by
    rw [State.tokenEnd, sound.quoted opens]
    rfl
  rw [same]
  exact ⟨begins, cut⟩

namespace Literal

variable (grammar : Grammar text) [Goals ordered grammar]

/-- Reading a segment passes over it, and over what ends it. -/
theorem templateSegment_from (tagged : Bool) (found : Found text) {context : Context}
    {state : State text} (sound : Sound ordered context state) {place : Nat}
    (reached : ∀ raw hole, segment? state.tokenEnd.rest = some (raw, hole) →
      place ≤ state.tokenEnd.offset + Text.size raw + 1) :
    ReadsFrom ordered place found (templateSegment grammar tagged (found, true)) Silent context
      state := by
  have gets : (get : Reader text (State text)) context state = .ok state state := rfl
  refine .step rfl (.refl sound) (.step rfl (.refl sound) (.step gets (.refl sound) ?_))
  split
  · exact .error rfl (.refl sound)
  · rename_i raw hole cut
    obtain ⟨more, follows⟩ := eq_append_of_segment? cut
    rw [List.append_assoc] at follows
    obtain ⟨stops, ends⟩ := state.tokenEnd.offset_advance_length follows
    obtain ⟨passes, -⟩ := Cursor.offset_advance_length _ ends
    have marks : 0 < Text.size (segmentEnd hole) := by cases hole <;> decide
    have place_le : place ≤
        ((state.tokenEnd.advance raw.length).advance (segmentEnd hole).length).offset := by
      have behind := reached raw hole cut
      omega
    have ahead : state.cursor.offset ≤
        ((state.tokenEnd.advance raw.length).advance (segmentEnd hole).length).offset := by
      have here := state.offset_le_tokenEnd
      omega
    extract_lets stop inner rest
    have reads (u : Unit) : ReadsFrom ordered place found (rest u) Silent context state := by
      cases hole with
      | true =>
          refine .jumpThen sound ahead place_le ?_
          exact .bind fun value _ => .bind fun _ _ => .whenNot .pure
      | false => exact .jumpThen sound ahead place_le .pure
    clear_value rest
    split
    · split
      · exact .error rfl (.refl sound)
      · exact reads ()
    · exact reads ()

instance templateSegment_reads (tagged : Bool) (state : Found text × Bool) :
    Reads ordered (carried text state) (templateSegment grammar tagged state) Silent := by
  obtain ⟨found, more⟩ := state
  cases more with
  | false => exact .pure
  | true =>
      constructor
      intro context state sound
      rw [carried_pair, carried_bare, List.append_nil]
      refine templateSegment_from grammar tagged found sound fun raw hole _ => ?_
      have here := state.offset_le_tokenEnd
      omega

/-- Reading the holes of a template passes over its first segment. -/
theorem templateHoles_from (tagged : Bool) {context : Context} {state : State text}
    (sound : Sound ordered context state) {place : Nat}
    (reached : ∀ raw hole, segment? state.tokenEnd.rest = some (raw, hole) →
      place ≤ state.tokenEnd.offset + Text.size raw + 1) :
    ReadsFrom ordered place [] (templateHoles grammar tagged) Silent context state := by
  unfold templateHoles
  have holes := Reads.loop_from sound.budget rfl
    (templateSegment_from grammar tagged [] sound reached) (templateSegment_reads grammar tagged)
  rw [← List.nil_append ([] : Found text)]
  refine holes.bind fun value _ => ?_
  obtain ⟨found, _⟩ := value
  exact .pure

instance templateHoles_reads (tagged : Bool) :
    Reads ordered [] (templateHoles grammar tagged) Silent := by
  unfold templateHoles
  exact .first (.loop (templateSegment_reads grammar tagged)) fun ⟨found, _⟩ => .pure

instance skipToken_reads : Reads ordered [] (skipToken : Reader text Unit) Silent := by
  unfold skipToken
  refine .bind fun token _ => .ite (fun _ => .get fun context state sound => ?_) fun _ => .last
  have ahead (count : Nat) : state.cursor.offset ≤ (state.tokenEnd.advance count).offset :=
    Nat.le_trans state.offset_le_tokenEnd (Cursor.offset_le_advance _ _)
  extract_lets after
  split
  · exact .jump sound (ahead _) (ahead _)
  · exact .jump sound (ahead _) (ahead _)

instance expectWhole_reads : Reads ordered [] (expectWhole : Reader text Unit) Silent := by
  unfold expectWhole
  refine .bind fun token _ => ?_
  split
  · exact .last
  · exact .bind fun state _ => .ite (fun _ => .last) fun _ => .pure
  · exact .pure

instance template_reads : Reads ordered [] (template grammar) Node.Plain := by
  unfold template
  exact .bind fun start _ => .bind fun found _ => .pure

/-- A tagged template is listed before what its tag and its types hold. The tag holds nothing if it
is a bare name, and otherwise the template is not listed at all. -/
theorem taggedTemplate_reads {tag : Node text} (plain : tag.Plain) (types : Found text)
    (untyped : ordered → types = []) :
    Reads ordered (tag.templates ++ types) (taggedTemplate grammar tag types) Node.Plain := by
  unfold taggedTemplate
  refine .get fun context state sound => ?_
  extract_lets cursor own
  have own_cases : own = [] ∨ ∃ template, own = [template] ∧ tag.templates = [] ∧
      template.start = state.tokenEnd ∧
      segment? state.tokenEnd.rest = some (template.raw, template.interpolated) := by
    cases form : tag.form with
    | name word =>
        cases stands : Template.at? word cursor with
        | none => exact .inl (by simp [own, form, stands])
        | some template =>
            exact .inr ⟨template, by simp [own, form, stands], plain word form,
              Template.at?_tokenEnd sound stands⟩
    | _ => exact .inl (by simp [own, form])
  clear_value own
  have rest (holes : Found text) : Reads ordered (own ++ tag.templates ++ types ++ holes)
      (if tag.form == .chain then do
          note tag.start
          pure (Node.plain tag.start .other (own ++ tag.templates ++ types ++ holes))
        else pure (Node.plain tag.start .other (own ++ tag.templates ++ types ++ holes)))
      Node.Plain :=
    .when .pure
  intro before passed
  -- a listed template begins behind all that was seen, and its holes have to pass its first segment
  rcases own_cases with rfl | ⟨template, rfl, bare, begins, cut⟩
  · have holes := (templateHoles_reads grammar true).from_sound context state sound
    exact holes.bind (fun found _ => rest found) before (by simpa using passed)
  · have holes : ReadsFrom ordered (template.stop + 1) [] (templateHoles grammar true) Silent
        context state := by
      refine templateHoles_from grammar true sound fun raw hole cut' => ?_
      obtain ⟨rfl, -⟩ := by simpa [cut] using cut'
      simp [Template.stop, begins]
    refine holes.bind (fun found _ => rest found) before ?_
    rw [bare, List.nil_append] at passed
    have pushed := passed.push (begins ▸ state.offset_le_tokenEnd) (Nat.lt_succ_self template.stop)
    rw [List.append_assoc] at pushed
    rw [bare, List.append_nil, List.append_nil]
    refine pushed.kept (.reordered (fun strict => ?_) fun p => ?_)
    · simp [untyped strict]
    · simp [List.countP_cons]

instance regex_reads : Reads ordered [] (regex : Reader text (Node text)) Node.Plain := by
  unfold regex
  refine .bind fun start _ => .get fun context state sound => ?_
  have ahead (count more : Nat) :
      state.cursor.offset ≤ ((state.cursor.next.advance count).advance more).offset :=
    Nat.le_trans state.cursor.offset_le_next
      (Nat.le_trans (Cursor.offset_le_advance _ _) (Cursor.offset_le_advance _ _))
  extract_lets after
  split
  · have broken : Sound ordered context
        { state with token := .broken start, spelled := nofun } :=
      ⟨sound.budget, sound.untyped, sound.absent, fun _ _ _ => nofun, sound.quoted⟩
    exact .error rfl ⟨broken, Nat.le_refl _⟩
  · extract_lets stop flags rest
    have jumps (state' : State text) (sound' : Sound ordered context state')
        (same : state'.cursor = state.cursor) :
        ReadsFrom ordered state.cursor.offset ([] ++ carried text start) (rest ()) Node.Plain
          context state' :=
      .jumpThen sound' (same ▸ ahead _ _) (ahead _ _) .pure
    clear_value rest
    split
    · exact jumps state sound rfl
    · exact .noted (some start) sound jumps

instance item_reads : Reads ordered [] (item grammar) Silent := by
  unfold item
  exact .bind fun spread _ => .bind fun node _ => .pure

omit [Goals ordered grammar] in
@[simp] theorem Items.follow_templates (items : Items text) :
    items.follow.templates = items.templates := by
  unfold Items.follow
  split <;> rfl

/-- Items are listed in the order in which they are added. -/
@[simp] theorem Items.push_templates (items : Items text) (item : Item text) :
    (items.push item).templates = items.templates ++ item.node.templates := by
  simp [Items.push]

instance array_reads : Reads ordered [] (array grammar) Node.Plain := by
  unfold array
  refine .bind fun start _ => .bind fun _ _ => .first (.loop fun items => ?_) fun items =>
    .bind fun _ _ => .pure
  refine .bind fun _ _ => .ite (fun _ => .pure) fun _ => ?_
  refine .bind fun _ _ => .ite (fun _ => .pure) fun _ => ?_
  refine .bind fun item _ => .bind fun _ _ => .ite (fun _ => .pure) fun _ => ?_
  exact .bind fun _ _ => .bind fun _ _ => .ite (fun _ => .pure) fun _ => .pure

@[simp] theorem fixedProperty_templates (start : Nat) (found : Found text) :
    (fixedProperty start found).templates = found := rfl

instance method_reads (start : Nat) (async generator : Bool) :
    Reads ordered [] (method grammar start async generator) Silent := by
  unfold method
  exact .bind fun key _ => .bind fun function _ => .pure

instance accessor_reads (start : Nat) (isGetter : Bool) :
    Reads ordered [] (accessor grammar start isGetter) Silent := by
  have (modifiers : Class.Modifiers) : Reads ordered []
      (Class.accessor grammar [] modifiers isGetter) Silent :=
    Class.accessor_reads grammar [] (fun _ => rfl) modifiers isGetter
  unfold accessor
  exact .bind fun member _ => .pure

instance propertyRest_reads (key : Key text) :
    Reads ordered key.templates (propertyRest grammar key) Silent := by
  unfold propertyRest
  refine .bind fun _ _ => .ite (fun _ => .bind fun value _ => .pure) fun _ => ?_
  refine .bind fun _ _ => .ite (fun _ => .bind fun function _ => .pure) fun _ => ?_
  split
  · refine .whenNot <| .bind fun _ _ => .whenNot <| .bind fun _ _ => .when <| .bind fun _ _ => ?_
    exact .ite (fun _ => .bind fun value _ => .pure) fun _ => .pure
  · exact .last

instance property_reads : Reads ordered [] (property grammar) Silent := by
  unfold property
  refine .bind fun types _ => .whenTwo <| .bind fun start _ => ?_
  refine .bind fun _ _ => .ite (fun _ => .last) fun _ => .bind fun next _ => .bind fun _ _ => ?_
  refine .ite (fun _ => .bind fun _ _ => .bind fun generator _ => .last) fun _ => ?_
  refine .bind fun _ _ => .ite (fun _ => .bind fun isGetter _ => .bind fun _ _ => .last) fun _ => ?_
  exact .bind fun key _ => .last

instance spreadProperty_reads : Reads ordered [] (spreadProperty grammar) Silent := by
  unfold spreadProperty
  exact .bind fun item _ => .pure

instance object_reads : Reads ordered [] (object grammar) Node.Plain := by
  unfold object
  refine .bind fun start _ => .bind fun _ _ => .first (.loop fun items => ?_) fun items =>
    .bind fun _ _ => .pure
  refine .bind fun _ _ => .ite (fun _ => .pure) fun _ => .bind fun _ _ => ?_
  extract_lets rest
  have (item : Item text) :
      Reads ordered (items.templates ++ item.node.templates) (rest item) Silent := by
    refine .bind fun _ _ => .ite (fun _ => .pure) fun _ => ?_
    exact .bind fun _ _ => .bind fun _ _ => .ite (fun _ => .pure) fun _ => .pure
  clear_value rest
  refine .ite (fun _ => .bind fun item _ => .last) fun _ => ?_
  exact .bind fun node _ => .pureBind .last

end Literal

namespace Markup

variable (grammar : Grammar text) [Goals ordered grammar]

instance simpleName_reads : Reads ordered [] (simpleName : Reader text String) Silent := by
  unfold simpleName
  refine .get fun context state sound => ?_
  have ahead (count : Nat) : state.cursor.offset ≤ (state.cursor.advance count).offset :=
    state.cursor.offset_le_advance count
  split
  · exact .jumpThen sound (ahead _) (ahead _) .pure
  · exact .error rfl (.refl sound)

instance elementName_reads : Reads ordered [] (elementName : Reader text String) Silent := by
  unfold elementName
  refine .bind fun first _ => .bind fun _ _ => .ite (fun _ => .bind fun _ _ => .pure) fun _ => ?_
  refine .loop fun name => .bind fun _ _ => .ite (fun _ => .bind fun more _ => .pure) fun _ => .pure

instance embedded_reads (emptyAllowed : Bool) :
    Reads ordered [] (embedded grammar emptyAllowed) Silent := by
  unfold embedded
  refine .bind fun start _ => .bind fun _ _ => .bind fun _ _ => .ite (fun _ => .whenNot .pure)
    fun _ => ?_
  refine .bind fun _ _ => ?_
  extract_lets rest
  have (found : Found text) : Reads ordered found (rest found) Silent :=
    .bind fun _ _ => .whenNot .pure
  clear_value rest
  exact .ite (fun _ => .bind fun _ _ => .bind fun found _ => .last) fun _ =>
    .bind fun found _ => .last

instance attributeValue_reads : Reads ordered [] (attributeValue grammar) Silent := by
  unfold attributeValue
  refine .get fun context state sound => ?_
  extract_lets after gap cursor
  have ahead (count : Nat) : state.cursor.offset ≤ (cursor.advance count).offset :=
    Nat.le_trans state.offset_le_tokenEnd
      (Nat.le_trans (after.offset_le_advance _) (cursor.offset_le_advance _))
  split
  · split
    · split
      · exact .jumpThen sound (ahead _) (ahead _) .pure
      · exact .error rfl (.refl sound)
    · refine (?_ : Reads ordered [] _ Silent).from_sound context state sound
      refine .bind fun _ _ => .bind fun _ _ => .ite (fun _ => .last) fun _ => ?_
      exact .bind fun _ _ => .ite (fun _ => .last) fun _ => .last
  · refine (?_ : Reads ordered [] _ Silent).from_sound context state sound
    exact .bind fun _ _ => .last

instance attributeItem_reads : Reads ordered [] (attributeItem grammar) Silent := by
  unfold attributeItem
  refine .bind fun _ _ => .ite (fun _ => ?_) fun _ => ?_
  · exact .bind fun _ _ => .bind fun found _ => .bind fun _ _ => .pure
  · refine .bind fun _ _ => .bind fun _ _ => .when <| .bind fun _ _ => ?_
    exact .ite (fun _ => .last) fun _ => .pure

instance children_reads (name : Option String) :
    Reads ordered [] (children grammar name) Silent := by
  unfold children
  refine .first (.loop fun state => ?_) fun ⟨found, _⟩ => .pure
  obtain ⟨found, more⟩ := state
  refine .ite (fun _ => .pure) fun _ => .get fun context state sound => ?_
  refine .noted _ sound fun state' sound' same => ?_
  have ahead (count : Nat) : state.cursor.offset ≤ (state.tokenEnd.advance count).offset :=
    Nat.le_trans state.offset_le_tokenEnd (Cursor.offset_le_advance _ _)
  extract_lets cursor
  split
  · exact .jumpThen sound' (same ▸ ahead _) (ahead _) <| .bind fun inner _ => .pure
  · refine .jumpThen sound' (same ▸ ahead _) (ahead _) <| .bind fun _ _ => .bind fun next _ => ?_
    refine .ite (fun _ => ?_) fun _ => .bind fun inner _ => .pure
    refine .bind fun _ _ => .bind fun _ _ => .bind fun _ _ => ?_
    refine .ite (fun _ => .pureBind ?_) fun _ => .bind fun name _ => .pureBind ?_
    all_goals exact .bind fun _ _ => .whenNot <| .whenTwo .pure
  · exact .jumpThen sound' (same ▸ ahead _) (ahead _) .last

/-- The type arguments of an element are listed behind its attributes. -/
instance element_reads : Reads ordered [] (element grammar) Silent := by
  unfold element
  refine .bind fun _ _ => .bind fun _ _ => .ite (fun _ => .last) fun _ => ?_
  refine .bind fun name _ => .bind fun types told => .bind fun opens _ => ?_
  refine .either fun arguments _ untyped => ?_
  have none : ordered → arguments = [] := fun strict => untyped (by simp_all)
  refine .first (.loop fun found => ?_) fun attributes => .bind fun _ _ => ?_
  · refine .bind fun _ _ => .bind fun _ _ => .ite (fun _ => .pure) fun _ => ?_
    exact .bind fun more _ => .pure
  · refine .ite (fun _ => .bind fun _ _ => .whenNot <| .pure (.reordered ?_)) fun _ =>
      .bind fun inner _ => .pure (.reordered ?_)
    all_goals
      intro strict
      simp [none strict]

end Markup

end FieldUsage.Host
