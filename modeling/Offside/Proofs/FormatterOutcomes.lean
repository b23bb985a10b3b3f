/-
  Offside.Proofs.FormatterOutcomes
  ────────────────────────────────
  **EVERY END A FORMATTER COMMAND CAN COME TO.**

  A generator that asks a formatter command for a better page gets one of many
  outcomes back.  Two questions about the outcome decide what becomes of the
  page:

    · `IsReadable`  is there nothing in the outcome but text?
    · `success?`    did the command end well, and with which bytes?

  A readable outcome never stops the generator: what the command wrote is the
  page if it ended well, and the page is made as if there were no formatter if
  it did not.  An outcome that is not readable always stops it, also where the
  command had failed anyway and where only the error stream is not text.

  Main results:
    · `format_of_success`, `format_of_refusal`, `format_of_unreadable`  what a
      command formatter answers;
    · `formatter_outcome_decides`  what the generator makes of it.
-/
import Offside.Proofs.Layout

namespace Offside

open Text

/-! ## §1. Bytes that are text. -/

theorem decoded?_of_text (text : String) :
    decoded? text.toUTF8 = some (String.ofList (plainNewlines text.toList)) := by
  have hvalid : text.toUTF8.IsValidUTF8 := text.isValidUTF8
  unfold decoded? String.fromUTF8?
  rw [dif_pos hvalid]
  rfl

theorem decoded?_eq_none_iff (bytes : ByteArray) :
    decoded? bytes = none ↔ ¬ bytes.IsValidUTF8 := by
  unfold decoded? String.fromUTF8?
  split
  next hvalid => simp [hvalid]
  next hvalid => simp [hvalid]

theorem exists_decoded {bytes : ByteArray} (h : bytes.IsValidUTF8) :
    ∃ text, decoded? bytes = some text :=
  Option.ne_none_iff_exists'.mp fun hnone => (decoded?_eq_none_iff bytes).mp hnone h

/-! ## §2. Outcomes. -/

namespace Tool.Outcome

/-- Nothing but text comes of running a command: it ended with two texts, or it never
got so far for a reason that can be told. -/
def IsReadable : Outcome → Prop
  | .nullInWord => False
  | .badTimeout _ => False
  | .finished _ stdout stderr _ => stdout.IsValidUTF8 ∧ stderr.IsValidUTF8
  | _ => True

/-- What a command wrote that ended well. -/
def success? : Outcome → Option ByteArray
  | .finished code stdout _ _ => if code = 0 then some stdout else none
  | _ => none

/-- The failure that an outcome stands for which is not readable. -/
def breakage : Outcome → GenerateError
  | .nullInWord => .nullInWord
  | .badTimeout reason => .badTimeout reason
  | _ => .undecodable

end Tool.Outcome

/-- What comes of running the formatter command on markup.  The empty command is never
found. -/
def Formatter.outcome (host : Tool.Host) (command : List String) (timeout : Time) (files : Files)
    (html : String) : Tool.Outcome :=
  if command.isEmpty then .notFound else host files ⟨command, html.toUTF8, timeout⟩

/-- The failure of a generator whose formatter fails without refusing. -/
def FormatFailure.breaks? : FormatFailure → Option GenerateError
  | .error _ => none
  | .nullInWord => some .nullInWord
  | .undecodable => some .undecodable
  | .badTimeout reason => some (.badTimeout reason)

namespace Formatter

variable {name : String} {timeout : Time}

theorem ofOutcome_of_success {outcome : Tool.Outcome} (hreadable : outcome.IsReadable)
    {text : String} (hsuccess : outcome.success? = some text.toUTF8) :
    ofOutcome name timeout outcome = .ok (String.ofList (plainNewlines text.toList)) := by
  cases outcome with
  | finished code stdout stderr files =>
    -- nothing is used of the error stream, and yet it has to be read
    obtain ⟨-, herr⟩ := hreadable
    obtain ⟨err, herr⟩ := exists_decoded herr
    simp only [Tool.Outcome.success?, Option.ite_none_right_eq_some, Option.some.injEq] at hsuccess
    obtain ⟨rfl, rfl⟩ := hsuccess
    rw [ofOutcome, decoded?_of_text, herr]
    rfl
  | _ => exact absurd hsuccess (by simp [Tool.Outcome.success?])

theorem ofOutcome_of_refusal {outcome : Tool.Outcome} (hreadable : outcome.IsReadable)
    (hsuccess : outcome.success? = none) :
    ∃ reason, ofOutcome name timeout outcome = .error (.error reason) := by
  cases outcome with
  | notFound => exact ⟨_, rfl⟩
  | cannotStart error => exact ⟨_, rfl⟩
  | timedOut => exact ⟨_, rfl⟩
  | nullInWord => exact hreadable.elim
  | badTimeout reason => exact hreadable.elim
  | finished code stdout stderr files =>
    obtain ⟨hout, herr⟩ := hreadable
    obtain ⟨out, hout⟩ := exists_decoded hout
    obtain ⟨err, herr⟩ := exists_decoded herr
    have hcode : code ≠ 0 := by
      intro hcode
      simp [Tool.Outcome.success?, hcode] at hsuccess
    exact ⟨.failed name code err, by simp [ofOutcome, hout, herr, hcode]⟩

/-- The exit code has no say here: both streams are read before it is looked at. -/
theorem ofOutcome_of_unreadable {outcome : Tool.Outcome} (hreadable : ¬ outcome.IsReadable) :
    ∃ failure, ofOutcome name timeout outcome = .error failure
      ∧ failure.breaks? = some outcome.breakage := by
  cases outcome with
  | notFound => exact absurd trivial hreadable
  | cannotStart error => exact absurd trivial hreadable
  | timedOut => exact absurd trivial hreadable
  | nullInWord => exact ⟨_, rfl, rfl⟩
  | badTimeout reason => exact ⟨_, rfl, rfl⟩
  | finished code stdout stderr files =>
    refine ⟨.undecodable, ?_, rfl⟩
    by_cases hout : stdout.IsValidUTF8
    · have herr : ¬ stderr.IsValidUTF8 := fun herr => hreadable ⟨hout, herr⟩
      rw [← decoded?_eq_none_iff] at herr
      cases hdecoded : decoded? stdout <;> simp [ofOutcome, hdecoded, herr]
    · rw [← decoded?_eq_none_iff] at hout
      simp [ofOutcome, hout]

/-! ## §3. Command formatters. -/

variable {host : Tool.Host} {command : List String} {files : Files} {html : String}

theorem command_format_result (hcommand : command.isEmpty = false) :
    ((Formatter.command host command timeout).format files html).result
      = ofOutcome (commandName command) timeout (outcome host command timeout files html) := by
  unfold Formatter.command outcome
  simp only [hcommand, Bool.false_eq_true, if_false]
  cases host files ⟨command, html.toUTF8, timeout⟩ <;> rfl

/-- **A command that ends well** and writes nothing but text has its output used. -/
theorem format_of_success (hreadable : (outcome host command timeout files html).IsReadable)
    {text : String}
    (hsuccess : (outcome host command timeout files html).success? = some text.toUTF8) :
    ((Formatter.command host command timeout).format files html).result
      = .ok (String.ofList (plainNewlines text.toList)) := by
  cases hcommand : command.isEmpty with
  | true => exact absurd hsuccess (by simp [outcome, hcommand, Tool.Outcome.success?])
  | false => rw [command_format_result hcommand, ofOutcome_of_success hreadable hsuccess]

/-- **A command that does not end well** is a refusal, if nothing but text comes of
it. -/
theorem format_of_refusal (hreadable : (outcome host command timeout files html).IsReadable)
    (hsuccess : (outcome host command timeout files html).success? = none) :
    ∃ reason, ((Formatter.command host command timeout).format files html).result
      = .error (.error reason) := by
  cases hcommand : command.isEmpty with
  | true => exact ⟨.noCommand, by simp [Formatter.command, hcommand]⟩
  | false =>
    rw [command_format_result hcommand]
    exact ofOutcome_of_refusal hreadable hsuccess

/-- **A command of which something else comes** than text is no refusal. -/
theorem format_of_unreadable
    (hreadable : ¬ (outcome host command timeout files html).IsReadable) :
    ∃ failure, ((Formatter.command host command timeout).format files html).result = .error failure
      ∧ failure.breaks? = some (outcome host command timeout files html).breakage := by
  cases hcommand : command.isEmpty with
  | true => exact absurd (by simp [outcome, hcommand, Tool.Outcome.IsReadable]) hreadable
  | false =>
    rw [command_format_result hcommand]
    exact ofOutcome_of_unreadable hreadable

end Formatter

/-! ## §4. Generators. -/

namespace Markup

variable (o : Options) (asked : Bool)

mutual

/-- Whether a formatter is to be asked changes nothing about the markup. -/
theorem node_asked (depth : Nat) (parent : String) (n : Node) :
    node { o with useFormatter := asked } depth parent n = node o depth parent n := by
  cases n with
  | doctype name => rw [node, node]
  | text content =>
    rw [node, node]
    rfl
  | void tag =>
    rw [node, node]
    rfl
  | element tag children =>
    rw [node, node, nodes_asked (depth + 1) tag.name children]
    rfl

theorem nodes_asked (depth : Nat) (parent : String) (ns : List Node) :
    nodes { o with useFormatter := asked } depth parent ns = nodes o depth parent ns := by
  cases ns with
  | nil => rw [nodes, nodes]
  | cons n ns =>
    rw [nodes, nodes, node_asked depth parent n, nodes_asked depth parent ns]
    rfl

end

theorem markup_asked (forest : List Node) :
    markup { o with useFormatter := asked } forest = markup o forest :=
  congrArg String.ofList (nodes_asked o asked 0 "" forest)

end Markup

namespace Generator

open Markup Formatter

variable {g : Generator} {files : Files} {forest : List Node}

/-- A page that does not fit is not made, whatever there is to format it. -/
theorem generate_of_overflow {options : Option Options} {reason : TooWide}
    (hlive : g.disposed = false)
    (hover : overflow? g.room (options.getD g.options) forest = some reason) :
    (g.generate files forest options).result = .error (.indentation reason) := by
  unfold Generator.generate
  simp [hlive, hover]

/-- A page that fits is what becomes of its markup after the formatter has seen it. -/
theorem generate_of_asked {options : Option Options} (hlive : g.disposed = false)
    (hpretty : (options.getD g.options).minify = false)
    (huse : (options.getD g.options).useFormatter = true)
    (hover : overflow? g.room (options.getD g.options) forest = none) :
    g.generate files forest options
      = settled (markup (options.getD g.options) forest)
          (g.formatter.format files (markup (options.getD g.options) forest)) := by
  unfold Generator.generate
  simp [hlive, hover, hpretty, huse]

/-- What a generator makes without its formatter. -/
theorem generate_without_formatter (hlive : g.disposed = false) (o : Options)
    (hpretty : o.minify = false) (hover : overflow? g.room o forest = none) :
    (g.generate files forest (some { o with useFormatter := false })).result
      = .ok (tidyString (markup o forest)) := by
  have hfits : overflow? g.room { o with useFormatter := false } forest = none := hover
  rw [generate_unformatted hlive (.inr (.inl rfl))]
  simp only [Option.getD_some, hfits]
  rw [plainText, if_neg (by simp [hpretty]), markup_asked]

theorem settled_of_breaks {formatted : Formatted} {failure : FormatFailure} {e : GenerateError}
    (hresult : formatted.result = .error failure) (hbreaks : failure.breaks? = some e)
    (html : String) : (settled html formatted).result = .error e := by
  unfold settled
  cases failure <;> simp_all [FormatFailure.breaks?]

/-- **The outcome of the formatter command decides.**  Let a live generator ask its
formatter command.  If no page can be made without the formatter, none is made with it,
for the same reason.  Otherwise the generator gives what the command wrote, with plain
newlines, if the command ended well; it gives the page it makes without the formatter
if the command ended in any other way; and it fails if, and only if, something other
than text came of the command. -/
theorem formatter_outcome_decides (hlive : g.disposed = false) {host : Tool.Host}
    {command : List String} {timeout : Time} (hcommand : g.formatter = .command host command timeout)
    (options : Option Options) (hpretty : (options.getD g.options).minify = false)
    (huse : (options.getD g.options).useFormatter = true) (files : Files) (forest : List Node) :
    let o := options.getD g.options
    let outcome := Formatter.outcome host command timeout files (markup o forest)
    let result := (g.generate files forest options).result
    let plain := (g.generate files forest (some { o with useFormatter := false })).result
    (∀ e, plain = .error e → result = .error e)
      ∧ ∀ page, plain = .ok page →
        (outcome.IsReadable →
          (∀ text : String, outcome.success? = some text.toUTF8 →
              result = .ok (String.ofList (plainNewlines text.toList)))
            ∧ (outcome.success? = none → result = .ok page))
        ∧ (¬ outcome.IsReadable → result = .error outcome.breakage) := by
  intro o outcome result plain
  cases hover : overflow? g.room o forest with
  | some reason =>
    -- the markup does not fit, which is found out before the formatter is asked
    have hplain : plain = .error (.indentation reason) := generate_of_overflow hlive hover
    have hresult : result = .error (.indentation reason) := generate_of_overflow hlive hover
    rw [hplain, hresult]
    exact ⟨fun e he => he, fun page hpage => absurd hpage (by simp)⟩
  | none =>
    have hplain : plain = .ok (tidyString (markup o forest)) :=
      generate_without_formatter hlive o hpretty hover
    have hresult : result = (settled (markup o forest)
        ((Formatter.command host command timeout).format files (markup o forest))).result := by
      rw [← hcommand]
      exact congrArg Generated.result (generate_of_asked hlive hpretty huse hover)
    rw [hplain]
    refine ⟨fun e he => absurd he (by simp), fun page hpage => ?_⟩
    injection hpage with hpage
    subst hpage
    refine ⟨fun hreadable => ⟨fun text hsuccess => ?_, fun hsuccess => ?_⟩, fun hreadable => ?_⟩
    · rw [hresult, settled, format_of_success hreadable hsuccess]
    · -- a refusal is answered by tidying the markup, as without a formatter
      obtain ⟨reason, hrefused⟩ := format_of_refusal hreadable hsuccess
      rw [hresult, settled, hrefused]
    · obtain ⟨failure, hfailed, hbreaks⟩ := format_of_unreadable hreadable
      rw [hresult]
      exact settled_of_breaks hfailed hbreaks _

/-- A host of a few commands. -/
def toolbox : Tool.Host := fun _ request =>
  match request.command.headD "" with
  | "greet" => .finished 0 "ok\r\n".toUTF8 "told\n".toUTF8 none
  | "fail" => .finished 1 "half".toUTF8 "bad\n".toUTF8 none
  | "mutter" => .finished 1 ⟨#[]⟩ ⟨#[0xff]⟩ none
  | "garble" => .finished 0 ⟨#[0xff]⟩ ⟨#[]⟩ none
  | "warn" => .finished 0 "ok".toUTF8 ⟨#[0xff]⟩ none
  | _ => .notFound

/-- A generator that asks a command of the toolbox. -/
def asking (command : String) : Generator :=
  { options := {}, formatter := .command toolbox [command] (.whole 5) }

/-- A page of two nodes. -/
def shortPage : List Node :=
  [.element ⟨"p", [], none, []⟩ [.text "one"], .void ⟨"br", [], none, []⟩]

theorem formatter_outcome_decides_toolbox :
    ((asking "greet").generate (Files.fresh []) shortPage none).result = .ok "ok\n"
      ∧ ((asking "fail").generate (Files.fresh []) shortPage none).result
          = .ok "<p>one</p>\n<br />" := by
  have hfits : overflow? .usual {} shortPage = none := by decide +kernel
  have hplain (command : String) :
      ((asking command).generate (Files.fresh []) shortPage (some { useFormatter := false })).result
        = .ok "<p>one</p>\n<br />" := by
    rw [generate_without_formatter rfl {} rfl hfits]
    decide +kernel
  have hdecides (command : String) :=
    (formatter_outcome_decides (g := asking command) rfl rfl none rfl rfl (Files.fresh [])
      shortPage).2 _ (hplain command)
  have hgreeted : (outcome toolbox ["greet"] (.whole 5) (Files.fresh [])
      (markup {} shortPage)).IsReadable := ⟨String.isValidUTF8 _, String.isValidUTF8 _⟩
  have hfailed : (outcome toolbox ["fail"] (.whole 5) (Files.fresh [])
      (markup {} shortPage)).IsReadable := ⟨String.isValidUTF8 _, String.isValidUTF8 _⟩
  exact ⟨((hdecides "greet").1 hgreeted).1 "ok\r\n" rfl, ((hdecides "fail").1 hfailed).2 rfl⟩

/-- A command that fails with one byte on its error stream that is not text leaves no
page, though one is made without it; so does one that ends well with such a byte on
either stream. -/
theorem unreadable_failure_leaves_no_page :
    ((asking "mutter").generate (Files.fresh []) shortPage (some { useFormatter := false })).result
        = .ok "<p>one</p>\n<br />"
      ∧ ((asking "mutter").generate (Files.fresh []) shortPage none).result = .error .undecodable
      ∧ ((asking "garble").generate (Files.fresh []) shortPage none).result = .error .undecodable
      ∧ ((asking "warn").generate (Files.fresh []) shortPage none).result = .error .undecodable := by
  decide +kernel

end Generator

end Offside
