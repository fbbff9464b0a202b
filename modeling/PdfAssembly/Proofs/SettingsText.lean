import PdfAssembly.Proofs.JsonGrammar
import PdfAssembly.Settings.File

/-! Settings written as a JSON object. The object says what differs from the defaults, in any
order and spelling and among any members that mean nothing; reading it gives the settings back. -/
namespace PdfAssembly

open Json

namespace Settings

def get (settings : Settings) : Field → String ⊕ Bool
  | .title => .inl settings.title
  | .author => .inl settings.author
  | .overwrite => .inr settings.overwrite
  | .stampDates => .inr settings.stampDates
  | .version => .inl settings.version
  | .compress => .inr settings.compress

theorem eq_of_get_eq {settings other : Settings}
    (same : ∀ field, settings.get field = other.get field) : settings = other := by
  have title := same .title
  have author := same .author
  have overwrite := same .overwrite
  have stampDates := same .stampDates
  have version := same .version
  have compress := same .compress
  cases settings
  cases other
  simp_all [get]

inductive Spelled : String ⊕ Bool → List Char → Prop
  | text {value : String} {written : List Char} : Quotes value written →
      Spelled (.inl value) written
  | yes : Spelled (.inr true) ['t', 'r', 'u', 'e']
  | no : Spelled (.inr false) ['f', 'a', 'l', 's', 'e']

/-- The ways to write a member, which sets the field in the settings or means nothing. -/
inductive Member (settings : Settings) : Option Field → List Char → Prop
  | field {field : Field} {before key behind start value after : List Char} :
      Blank before → Quotes field.key key → Blank behind → Blank start →
      Spelled (settings.get field) value → Blank after →
      Member settings (some field) (before ++ key ++ behind ++ ':' :: start ++ value ++ after)
  | other {name : String} {before key behind start value after : List Char} :
      Blank before → Quotes name key → (∀ field, Field.key field ≠ name) → Blank behind →
      Blank start →
      Written .value value → Blank after →
      Member settings none (before ++ key ++ behind ++ ':' :: start ++ value ++ after)

inductive Members (settings : Settings) : List Field → List Char → Prop
  | last {field : Option Field} {member : List Char} : Member settings field member →
      Members settings field.toList member
  | more {field : Option Field} {fields : List Field} {member rest : List Char} :
      Member settings field member → Members settings fields rest →
      Members settings (field.toList ++ fields) (member ++ ',' :: rest)

inductive Describes (settings : Settings) : List Field → List Char → Prop
  | empty {before inside after : List Char} : Blank before → Blank inside → Blank after →
      Describes settings [] (before ++ '{' :: inside ++ '}' :: after)
  | object {fields : List Field} {before inside after : List Char} : Blank before →
      Members settings fields inside → Blank after →
      Describes settings fields (before ++ '{' :: inside ++ '}' :: after)

theorem Field.ofKey?_eq_none {name : String} (unknown : ∀ field, Field.key field ≠ name) :
    ofKey? name = none := by
  rw [ofKey?, List.find?_eq_none]
  simpa using fun field _ => unknown field

theorem readText_append {gap written : List Char} {value : String} (blank : Blank gap)
    (quoted : Quotes value written) (rest : List Char) :
    Reads (readText (gap ++ (written ++ rest))) value rest := by
  obtain ⟨inner, same, _, done⟩ := quoted.reads rest
  have shape : dropBlank (gap ++ (written ++ rest)) = '"' :: inner := by
    rw [dropBlank_append blank, same, dropBlank_cons rfl]
  rw [readText]
  split
  · simp_all
  · rename_i mark
    cases shape.symm.trans mark
    simp only [done, bind, Except.bind, String.ofList_toList]
    exact ⟨_, rfl⟩
  · simp_all

theorem readFlag_append {gap written : List Char} {value : Bool} (blank : Blank gap)
    (spelled : Spelled (.inr value) written) (rest : List Char) :
    Reads (readFlag (gap ++ (written ++ rest))) value rest := by
  have shape := dropBlank_append blank (written ++ rest)
  cases spelled
  case' yes => obtain ⟨_, done⟩ := word_append ['r', 'u', 'e'] rest
  case' no => obtain ⟨_, done⟩ := word_append ['a', 'l', 's', 'e'] rest
  all_goals
    rw [List.cons_append, dropBlank_cons rfl] at shape
    rw [readFlag]
    split
    · simp_all
    · rename_i mark
      obtain ⟨rfl, rfl⟩ := List.cons.inj (shape.symm.trans mark)
      dsimp only [bind, Except.bind, String.reduceToList]
      rw [done]
      exact ⟨_, rfl⟩

/-- Reading a field changes it and no other. -/
theorem readField_append {target : Settings} {field : Field} {gap written : List Char}
    (settings : Settings) (blank : Blank gap) (spelled : Spelled (target.get field) written)
    (rest : List Char) :
    ∃ next, Reads (readField settings (gap ++ (written ++ rest)) field) next rest ∧
      ∀ other, next.get other = if other = field then target.get other else settings.get other := by
  cases field with
  | title | author | version =>
    obtain ⟨quoted⟩ := spelled
    obtain ⟨_, done⟩ := readText_append blank quoted rest
    simp only [readField, done]
    exact ⟨_, ⟨_, rfl⟩, by rintro (_ | _) <;> rfl⟩
  | overwrite | stampDates | compress =>
    obtain ⟨_, done⟩ := readFlag_append blank spelled rest
    simp only [readField, done]
    exact ⟨_, ⟨_, rfl⟩, by rintro (_ | _) <;> rfl⟩

theorem readColon_append {gap : List Char} (blank : Blank gap) (rest : List Char) :
    Passes (readColon (gap ++ ':' :: rest)) rest := by
  have shape := dropBlank_append blank (':' :: rest)
  rw [dropBlank_cons rfl] at shape
  rw [readColon]
  split
  · simp_all
  · rename_i mark
    cases shape.symm.trans mark
    exact ⟨_, rfl⟩
  · simp_all

inductive Opens : Bool → List Char → Prop
  | first : Opens true []
  | later {gap : List Char} : Blank gap → Opens false (gap ++ [','])

theorem memberStart_append {first : Bool} {lead text more : List Char} {c : Char}
    (opens : Opens first lead) (shape : dropBlank text = c :: more) (start : Starts c) :
    ∃ rest, Passes (memberStart first (lead ++ text)) rest ∧ dropBlank rest = c :: more := by
  cases opens with
  | first =>
    refine ⟨c :: more, ?_, dropBlank_cons start.1 more⟩
    rw [List.nil_append, memberStart]
    split
    · simp_all
    · rename_i same
      cases shape.symm.trans same
      exact ⟨_, rfl⟩
  | @later gap blank =>
    refine ⟨text, ?_, shape⟩
    have comma : dropBlank (gap ++ [','] ++ text) = ',' :: text := by
      rw [List.append_assoc, dropBlank_append blank, List.singleton_append, dropBlank_cons rfl]
    rw [memberStart]
    split
    · simp_all
    · rename_i same
      cases comma.symm.trans same
      simp only [Bool.false_eq_true, if_false, Char.reduceEq, if_true]
      rw [shape]
      split
      · simp_all
      · rename_i closing
        cases closing
        exact absurd start (by decide)
      · exact ⟨_, rfl⟩

theorem memberStart_end {gap : List Char} (first : Bool) (blank : Blank gap) (rest : List Char) :
    Passes (memberStart first (gap ++ '}' :: rest)) ('}' :: rest) := by
  have shape := dropBlank_append blank ('}' :: rest)
  rw [dropBlank_cons rfl] at shape
  rw [memberStart]
  split
  · simp_all
  · rename_i same
    cases shape.symm.trans same
    cases first <;> exact ⟨_, rfl⟩

theorem readKey_append {first : Bool} {lead before key : List Char} {name : String}
    (opens : Opens first lead) (blank : Blank before) (quoted : Quotes name key)
    (rest : List Char) :
    Reads (readKey first (lead ++ (before ++ (key ++ rest)))) (some name) rest := by
  obtain ⟨inner, same, _, done⟩ := quoted.reads rest
  have shape : dropBlank (before ++ (key ++ rest)) = '"' :: inner := by
    rw [dropBlank_append blank, same, dropBlank_cons rfl]
  obtain ⟨behind, ⟨_, started⟩, here⟩ := memberStart_append opens shape (by decide)
  simp only [readKey, started, bind, Except.bind]
  split
  · rename_i mark
    cases here.symm.trans mark
    simp only [done, String.ofList_toList]
    exact ⟨_, rfl⟩
  · simp_all
  · simp_all

theorem readKey_end {gap : List Char} (first : Bool) (blank : Blank gap) (rest : List Char) :
    Reads (readKey first (gap ++ '}' :: rest)) none rest := by
  obtain ⟨_, started⟩ := memberStart_end first blank rest
  have here := dropBlank_cons (c := '}') rfl rest
  simp only [readKey, started, bind, Except.bind]
  split
  · simp_all
  · rename_i mark
    cases here.symm.trans mark
    exact ⟨_, rfl⟩
  · simp_all

variable {target : Settings} {fields : List Field} {inside : List Char}

/-- Reading a member sets its field, if it has one, and goes on behind it. -/
theorem readMembers_member {field : Option Field} {member lead : List Char} {first : Bool}
    (written : Member target field member) (settings : Settings) (seen : List Field)
    (fresh : ∀ own, field = some own → own ∉ seen) (opens : Opens first lead) {rest : List Char}
    (stop : Stops rest) :
    ∃ next after, readMembers settings seen first (lead ++ (member ++ rest)) =
        readMembers next (field.toList ++ seen) false (after ++ rest) ∧ Blank after ∧
      ∀ other, next.get other =
        if field = some other then target.get other else settings.get other := by
  cases written with
  | @field own before key behind start value after blank quoted gap second spelled last =>
    obtain ⟨next, ⟨_, read⟩, holds⟩ :=
      readField_append settings second spelled (after ++ rest)
    obtain ⟨_, colon⟩ := readColon_append gap (start ++ (value ++ (after ++ rest)))
    obtain ⟨_, named⟩ := readKey_append opens blank quoted
      (behind ++ ':' :: (start ++ (value ++ (after ++ rest))))
    refine ⟨next, after, ?_, last, by simpa [eq_comm] using holds⟩
    have shape : before ++ key ++ behind ++ ':' :: start ++ value ++ after ++ rest =
        before ++ (key ++ (behind ++ ':' :: (start ++ (value ++ (after ++ rest))))) := by simp
    have unseen : own ∉ seen := fresh own rfl
    rw [shape, readMembers]
    simp only [named, bind, Except.bind, Field.ofKey?_key, unseen, if_false, colon, read]
    rfl
  | @other name before key behind start value after blank quoted unknown gap second form last =>
    obtain ⟨_, skipped⟩ := skipValue_append second form (stop.blank last)
    obtain ⟨_, colon⟩ := readColon_append gap (start ++ (value ++ (after ++ rest)))
    obtain ⟨_, named⟩ := readKey_append opens blank quoted
      (behind ++ ':' :: (start ++ (value ++ (after ++ rest))))
    refine ⟨settings, after, ?_, last, by simp⟩
    have shape : before ++ key ++ behind ++ ':' :: start ++ value ++ after ++ rest =
        before ++ (key ++ (behind ++ ':' :: (start ++ (value ++ (after ++ rest))))) := by simp
    rw [shape, readMembers]
    simp only [named, bind, Except.bind, Field.ofKey?_eq_none unknown, colon, skipped]
    rfl

theorem readMembers_end {gap : List Char} (settings : Settings) (seen : List Field) (first : Bool)
    (blank : Blank gap) (rest : List Char) :
    readMembers settings seen first (gap ++ '}' :: rest) = .ok (settings, rest) := by
  obtain ⟨_, done⟩ := readKey_end first blank rest
  rw [readMembers]
  simp only [done, bind, Except.bind]
  rfl

/-- Reading members sets the fields that they mention and no others. -/
theorem readMembers_append (written : Members target fields inside) (distinct : fields.Nodup)
    (settings : Settings) {seen : List Field} (fresh : ∀ field ∈ fields, field ∉ seen)
    {first : Bool} {lead : List Char} (opens : Opens first lead) (rest : List Char) :
    ∃ next, readMembers settings seen first (lead ++ (inside ++ '}' :: rest)) =
        .ok (next, rest) ∧
      ∀ field, next.get field =
        if field ∈ fields then target.get field else settings.get field := by
  induction written generalizing settings seen first lead with
  | @last field member only =>
    have stop : Stops ('}' :: rest) := stops_closing .object rest
    obtain ⟨next, after, read, blank, holds⟩ := readMembers_member only settings seen
      (fun own here => fresh own (by simp [here])) opens stop
    refine ⟨next, ?_, by simpa [eq_comm] using holds⟩
    rw [read, readMembers_end _ _ _ blank]
  | @more field fields member others only _ ih =>
    obtain ⟨_, apart, disjoint⟩ := List.nodup_append.1 distinct
    have stop : Stops (',' :: (others ++ '}' :: rest)) := stops_cons (by simp) _
    obtain ⟨middle, after, read, blank, holds⟩ := readMembers_member only settings seen
      (fun own here => fresh own (by simp [here])) opens stop
    have unseen : ∀ other ∈ fields, other ∉ field.toList ++ seen := by
      intro other member here
      rcases List.mem_append.1 here with before | before
      · exact disjoint _ before _ member rfl
      · exact fresh other (by simp [member]) before
    obtain ⟨next, done, behind⟩ := ih apart middle unseen (.later blank)
    refine ⟨next, ?_, ?_⟩
    · rw [List.append_assoc, List.cons_append, read]
      simpa using done
    · intro other
      rw [behind, holds]
      by_cases here : other ∈ fields <;> by_cases there : field = some other <;> simp [here, there]

/-- An object of settings is read as the settings that it describes, if what it leaves out is as
in the defaults. -/
theorem ofJson_of_describes {text : String} (described : Describes target fields text.toList)
    (distinct : fields.Nodup)
    (others : ∀ field, field ∉ fields → target.get field = ({} : Settings).get field) :
    ofJson text = .ok target := by
  have read : ∃ inside after, dropBlank text.toList = '{' :: (inside ++ '}' :: after) ∧
      readMembers {} [] true (inside ++ '}' :: after) = .ok (target, after) ∧ Blank after := by
    generalize text.toList = written at described
    cases described with
    | @empty before inside after blank nothing last =>
      have same : {} = target := eq_of_get_eq fun field => (others field List.not_mem_nil).symm
      refine ⟨inside, after, ?_, same ▸ readMembers_end {} [] true nothing after, last⟩
      rw [List.append_assoc, dropBlank_append blank, List.cons_append, dropBlank_cons rfl]
    | @object fields before inside after blank members last =>
      obtain ⟨next, read, holds⟩ :=
        readMembers_append members distinct {} (fun _ _ => List.not_mem_nil) .first after
      have same : next = target := by
        refine eq_of_get_eq fun field => (holds field).trans ?_
        split
        · rfl
        · rename_i absent
          exact (others field absent).symm
      refine ⟨inside, after, ?_, same ▸ read, last⟩
      rw [List.append_assoc, dropBlank_append blank, List.cons_append, dropBlank_cons rfl]
  obtain ⟨inside, after, shape, done, last⟩ := read
  simp only [ofJson, shape, done, bind, Except.bind, dropBlank_of_blank last, if_true]
  rfl

/-- A text is read from the bytes that encode it. -/
theorem text?_raw (text : String) :
    (Pdf.Content.raw text.toUTF8.data.toList).text? = some text := by
  have valid : text.toUTF8.IsValidUTF8 := text.isValidUTF8
  exact dif_pos valid

theorem unsupportedVersion_message (version : String) :
    (Failure.settings (.unsupportedVersion version)).message =
      "configuration error: unsupported pdf_version " ++ Text.quote version := by
  have words : "configuration error: unsupported pdf_version " =
      "configuration error: " ++ "unsupported pdf_version " := rfl
  rw [words, String.append_assoc]
  rfl

/-- A settings file means the defaults but for the fields that it mentions. If the version that
comes out is none that is supported, the failure quotes it. -/
theorem load_overrides_defaults {files : FileSystem} {path text : String} {content : Pdf.Content}
    {settings : Settings} {mentioned : List Field} (found : files.read path = .ok content)
    (readable : content.text? = some text)
    (described : Describes settings mentioned text.toList) (distinct : mentioned.Nodup)
    (others : ∀ field, field ∉ mentioned → settings.get field = ({} : Settings).get field) :
    (settings.Supported → load files path = .ok settings) ∧
    (¬ settings.Supported →
      load files path = .error (.settings (.unsupportedVersion settings.version)) ∧
      (Failure.settings (.unsupportedVersion settings.version)).message =
        "configuration error: unsupported pdf_version " ++ Text.quote settings.version) := by
  simp only [load, found, readable, ofJson_of_describes described distinct others, check]
  exact ⟨fun supported => if_pos supported,
    fun unsupported => ⟨if_neg unsupported, unsupportedVersion_message _⟩⟩

/-- A file that names a version, with a title in escapes and a member that means nothing. -/
def smilingText (version : String) : String :=
  "\x7b\"x\": [1e3, \"\\ud800\"], \"title\": \"\\ud83d\\ude00\",\"pdf_version\": \"" ++ version ++
    "\"\n\x7d"

def smilingFiles (version : String) : FileSystem where
  here := "/home"
  nodes := [(["home"], .directory),
    (["home", "settings.json"], .file (.raw (smilingText version).toUTF8.data.toList))]

theorem smile_described {version : String}
    (printed : ∀ c ∈ version.toList, c ≠ '"' ∧ c ≠ '\\' ∧ 0x20 ≤ c.toNat) :
    Describes { title := "😀", version } [.title, .version] (smilingText version).toList := by
  have nothing : Blank [] := by simp [Blank]
  have space : Blank [' '] := by simp [Blank, isBlank]
  have line : Blank ['\n'] := by simp [Blank, isBlank]
  have single (c : Char) (digit : c.isDigit = true) : Digits [c] :=
    ⟨List.cons_ne_nil _ _, List.forall_mem_singleton.2 digit⟩
  have thousand : IsNumber ['1', 'e', '3'] :=
    .parts [] ['1'] [] ['e', '3'] (.inl rfl) (single _ rfl) (by decide) (.inl rfl)
      (.inr ⟨'e', [], ['3'], .inl rfl, .inl rfl, single _ rfl, rfl⟩)
  have half : IsString ('"' :: [['\\', 'u', 'd', '8', '0', '0']].flatten ++ ['"']) := by
    refine .pieces _ (List.forall_mem_singleton.2 (.unit 0xD800 ?_))
    exact .digits (w := 13) (x := 8) (y := 0) (z := 0) rfl rfl rfl rfl
  have first : Written (.item .list) _ :=
    .element (.padded nothing (.scalar (.number thousand)) nothing)
  have second : Written (.item .list) _ :=
    .element (.padded space (.scalar (.string half)) nothing)
  have value := Written.full (.more first (.last second))
  have smile : Quotes "😀" ('"' ::
      [['\\', 'u', 'd', '8', '3', 'd', '\\', 'u', 'd', 'e', '0', '0']].flatten ++ ['"']) := by
    refine .spelled _ (.cons (.pair ['d', '8', '3', 'd'] ['d', 'e', '0', '0'] (by decide) ?_ ?_)
      .nil)
    · exact .digits (w := 13) (x := 8) (y := 3) (z := 13) rfl rfl rfl rfl
    · exact .digits (w := 13) (x := 14) (y := 0) (z := 0) rfl rfl rfl rfl
  have unknown (field : Field) : field.key ≠ "x" := by cases field <;> decide
  have other : Member { title := "😀", version } none _ :=
    .other nothing (.plain (by simp)) unknown nothing space value nothing
  have title : Member { title := "😀", version } (some .title) _ :=
    .field space (.plain (by simp [Field.key])) nothing space (.text smile) nothing
  have named : Member { title := "😀", version } (some .version) _ :=
    .field nothing (.plain (by simp [Field.key])) nothing space (.text (.plain printed)) line
  have shape : (smilingText version).toList =
      "\x7b\"x\": [1e3, \"\\ud800\"], \"title\": \"\\ud83d\\ude00\",\"pdf_version\": \"".toList ++
        version.toList ++ "\"\n\x7d".toList := by
    unfold smilingText
    rw [String.toList_append, String.toList_append]
  rw [shape]
  simp only [String.reduceToList]
  have object := Describes.object nothing (.more other (.more title (.last named))) nothing
  simpa [Field.key, Container.opening, Container.closing] using object

theorem smiling_settings_loaded :
    load (smilingFiles "2.0") "settings.json" = .ok { title := "😀", version := "2.0" } ∧
    load (smilingFiles "3.0") "settings.json" = .error (.settings (.unsupportedVersion "3.0")) := by
  have two : (smilingFiles "2.0").read "settings.json" =
      .ok (.raw (smilingText "2.0").toUTF8.data.toList) := rfl
  have three : (smilingFiles "3.0").read "settings.json" =
      .ok (.raw (smilingText "3.0").toUTF8.data.toList) := rfl
  have others (version : String) (field : Field) (absent : field ∉ [Field.title, .version]) :
      get { title := "😀", version } field = get {} field := by
    cases field <;> simp_all [get]
  have loaded := load_overrides_defaults two (text?_raw _)
    (smile_described (by simp)) (by decide) (others "2.0")
  have refused := load_overrides_defaults three (text?_raw _)
    (smile_described (by simp)) (by decide) (others "3.0")
  exact ⟨loaded.1 (by decide), (refused.2 (by decide)).1⟩

end Settings

end PdfAssembly
