import Concordance.Command.Setup
import Concordance.Proofs.FileChanges
import Concordance.Proofs.Frontmatter

set_option autoImplicit false

/-!
# Setting a project up

A setup that fails changes no file, and one without force fails wherever settings are there
already. One that succeeds writes the settings file and no other, and the project then loads with
every setting at its default. In a project directory that is there, just three things make a setup
fail: settings that are not to be overwritten, a file in place of the settings directory, and a
directory in place of the settings file.
-/

namespace Concordance

open Text

namespace Settings

/-! ## The settings file of a new project -/

/-- The lines of a new settings file between its fences. -/
def templateLines : List Text :=
  ["project:", "  root: .", "paths:", "  specs: specs", "  implementations: concepts",
    "  related: syncs", "assessment:", "  enabled: false", "  model: gpt-4o-mini",
    "  endpoint: https://api.openai.com/v1", "  api_key: ~", "  timeout_secs: 60",
    "strict: false"]

/-- The lines of the template say the default settings. -/
theorem ofYaml?_templateLines :
    SettingsDocument.ofYaml? (furtherLines templateLines) = some {} := by
  decide +kernel

/-- The template is a fence, the settings, a fence, and notes. -/
theorem template_eq :
    ∃ notes, template =
      Frontmatter.fence ++ furtherLines templateLines ++ ("\n---\n" : Text) ++ notes := by
  obtain ⟨notes, htemplate⟩ : ∃ notes : List Text, template =
      joinWith "\n" (Frontmatter.fence :: (templateLines ++ Frontmatter.fence :: [] :: notes)) :=
    ⟨_, rfl⟩
  refine ⟨furtherLines notes, ?_⟩
  rw [htemplate, joinWith_feed_cons, furtherLines_append]
  simp [furtherLines, Frontmatter.fence]

/-- The split of the template gives its settings. -/
theorem split_template :
    (Frontmatter.split template).1 = some (furtherLines templateLines) := by
  obtain ⟨notes, htemplate⟩ := template_eq
  have hfence : ¬ '\n' :: Frontmatter.fence <:+: furtherLines templateLines := by
    rw [← contains_iff]
    decide +kernel
  rw [htemplate, Frontmatter.split_fenced hfence]

/-- Settings that are split off and read are the ones of the document, if they pass the check. -/
theorem parse_of_split {document text : Text} {settings : Settings}
    (hsplit : (Frontmatter.split document).1 = some text)
    (hread : SettingsDocument.ofYaml? text = some settings) :
    parse document = settings.check.map fun _ => settings := by
  simp only [parse, hsplit, hread]

/-- The template says the default settings. -/
theorem parse_template : parse template = .ok {} := by
  have hcheck : ({} : Settings).check = .ok () := by rfl
  rw [parse_of_split split_template ofYaml?_templateLines, hcheck]
  rfl

/-- A project whose settings file is the one of a new project has every setting at its default. -/
theorem load_of_template {tree : FileTree} {project : Text}
    (h : tree.readText (Path.join project fileName) = .ok template) :
    load tree project none = .ok { root := Path.join project "." } := by
  have hexists : tree.pathExists (Path.join project fileName) = true := by
    unfold FileTree.pathExists
    cases hlookup : tree.lookup (Path.join project fileName) with
    | ok node => rfl
    | error e => simp [FileTree.readText, hlookup, bind, Except.bind] at h
  have hwritten : loadWritten tree project none = .ok {} := by
    simp only [loadWritten, if_pos hexists, loadFile, h, parse_template]
  rw [load, hwritten]
  rfl

end Settings

namespace Setup

variable {s : Setup} {color : Bool} {tree : FileTree}

/-- Where a project has its settings. -/
def path (s : Setup) : Text := Path.join s.project Settings.fileName

/-- Where a project has the directory of its settings. -/
def directory (s : Setup) : Text := Path.join s.project Settings.directoryName

/-- Whether a setup writes where settings may be: they are missing or to be overwritten. -/
def MayWrite (s : Setup) (tree : FileTree) : Prop :=
  tree.pathExists s.path = false ∨ s.force = true

/-- The courses that a setup can take, with what they leave. -/
inductive Course (s : Setup) (color : Bool) (tree : FileTree) : Outcome → Prop where
  | refused (hexists : tree.pathExists s.path = true) (hforce : s.force = false) :
    Course s color tree (.failed tree (.settingsExist s.path))
  | noDirectory {stop : FileTree.Interruption} (hmay : s.MayWrite tree)
      (hstop : tree.makeDirectories s.directory = .error stop) :
    Course s color tree (.failed stop.tree (.settingsDirectory s.directory stop.cause))
  | noFile {made : FileTree} {e : FileError} (hmay : s.MayWrite tree)
      (hmade : tree.makeDirectories s.directory = .ok made)
      (hfile : made.writeFile s.path (.text Settings.template) = .error e) :
    Course s color tree (.failed made (.settingsFile s.path e))
  | written {made left : FileTree} (hmay : s.MayWrite tree)
      (hmade : tree.makeDirectories s.directory = .ok made)
      (hfile : made.writeFile s.path (.text Settings.template) = .ok left) :
    Course s color tree { tree := left, stdout := render color s.path, result := .ok 0 }

/-- Every setup takes its course. -/
theorem course_execute (s : Setup) (color : Bool) (tree : FileTree) :
    s.Course color tree (s.execute color tree) := by
  simp only [execute]
  split
  · next h =>
    obtain ⟨hexists, hforce⟩ := Bool.and_eq_true_iff.mp h
    exact .refused hexists (by simpa using hforce)
  · next h =>
    have hmay : s.MayWrite tree := by
      by_cases hforce : s.force = true
      · exact Or.inr hforce
      · refine Or.inl (Bool.eq_false_iff.mpr fun hexists => h ?_)
        exact Bool.and_eq_true_iff.mpr ⟨hexists, by simp [hforce]⟩
    split
    · next hstop => exact .noDirectory hmay hstop
    · next hmade =>
      split
      · next hfile => exact .noFile hmay hmade hfile
      · next hfile => exact .written hmay hmade hfile

/-- A setup succeeds just where it may write, and making the directory and writing the file both
succeed. -/
theorem result_eq_ok_iff :
    (s.execute color tree).result = .ok 0 ↔
      s.MayWrite tree ∧ ∃ made left, tree.makeDirectories s.directory = .ok made ∧
        made.writeFile s.path (.text Settings.template) = .ok left := by
  have hcourse := s.course_execute color tree
  generalize s.execute color tree = outcome at hcourse
  cases hcourse with
  | refused hexists hforce => simp [MayWrite, Outcome.failed, hexists, hforce]
  | noDirectory hmay hstop => simp [Outcome.failed, hstop]
  | noFile hmay hmade hfile => simp [Outcome.failed, hmade, hfile]
  | written hmay hmade hfile => simp [hmay, hmade, hfile]

/-! ## A project directory that is there -/

/-- The settings file has its name in the directory of the settings. -/
theorem names_path (s : Setup) :
    Path.names s.path =
      Path.names s.project ++ [Settings.directoryName] ++ [("config.md" : Text)] := by
  rw [Setup.path, Path.names_join (by decide), List.append_assoc]
  rfl

/-- The directory of the settings has its name in the project. -/
theorem names_directory (s : Setup) :
    Path.names s.directory = Path.names s.project ++ [Settings.directoryName] := by
  rw [Setup.directory, Path.names_join (by decide)]
  rfl

/-- The directory of the settings is no way up. -/
theorem endsInDot_directory (s : Setup) : Path.endsInDot s.directory = false := by
  rw [Setup.directory, Path.endsInDot_join (by decide) (by decide)]
  decide

/-- The path of the settings file ends with the last character of its name. -/
theorem getLast?_path (s : Setup) : s.path.getLast? = some 'd' := by
  have hrelative : Path.isAbsolute Settings.fileName = false := by decide
  obtain ⟨-, hjoin⟩ | ⟨front, hjoin, -⟩ := Path.join_cases hrelative s.project
  · rw [Setup.path, hjoin]
    decide
  · rw [Setup.path, hjoin, List.getLast?_append]
    rfl

/-- The path of the settings file does not ask for a directory. -/
theorem asksForDirectory_path (s : Setup) : FileTree.asksForDirectory s.path = false := by
  have hnot : ∀ (tail : Text) (c : Char), tail.getLast? = some c → c ≠ 'd' →
      endsWith tail s.path = false := by
    intro tail c htail hc
    rw [← Bool.not_eq_true, endsWith_iff]
    rintro ⟨front, hfront⟩
    have hlast := s.getLast?_path
    rw [← hfront, List.getLast?_append, htail] at hlast
    exact hc (Option.some.inj hlast)
  rw [FileTree.asksForDirectory, hnot "/" '/' (by decide) (by decide),
    hnot "/." '.' (by decide) (by decide)]
  rfl

/-- Settings are looked for in the settings directory of the project. -/
theorem resolve_path {top : Place} (hfollow : tree.follow (tree.startOf s.project)
      (Path.names s.project) = .ok top) (htop : tree.node? top = some .directory)
    (hdirectory : tree.node? (top ++ [Settings.directoryName]) = some .directory) :
    tree.resolve s.path = .ok (top ++ [Settings.directoryName] ++ [("config.md" : Text)]) := by
  have hstart : tree.startOf s.path = tree.startOf s.project :=
    FileTree.startOf_join (by decide) tree s.project
  have hname : Settings.directoryName ≠ ".." := by decide
  have hsettings := FileTree.follow_below hname hfollow htop
  refine FileTree.resolve_eq_ok_iff.mpr ⟨?_, ?_, ?_⟩
  · intro hpath
    have hlast := s.getLast?_path
    rw [hpath] at hlast
    cases hlast
  · rw [hstart, names_path]
    exact FileTree.follow_below (by decide) hsettings hdirectory
  · intro hasks
    rw [asksForDirectory_path] at hasks
    cases hasks

/-- In a project directory that is there, only a file in place of the settings directory or a
directory in place of the settings file keeps settings from being written. -/
theorem exists_written_iff {top : Place} (hproject : tree.directory? s.project = some top) :
    (∃ made left, tree.makeDirectories s.directory = .ok made ∧
        made.writeFile s.path (.text Settings.template) = .ok left) ↔
      (∀ contents, tree.node? (top ++ [Settings.directoryName]) ≠ some (.file contents)) ∧
        tree.node? (top ++ [Settings.directoryName] ++ [("config.md" : Text)]) ≠
          some .directory := by
  obtain ⟨hresolve, htop⟩ := FileTree.directory?_eq_some_iff.mp hproject
  obtain ⟨-, hfollow, -⟩ := FileTree.resolve_eq_ok_iff.mp hresolve
  have hstart : tree.startOf s.directory = tree.startOf s.project :=
    FileTree.startOf_join (by decide) tree s.project
  have hname : isFileName Settings.directoryName = true := by decide
  by_cases hfile : ∃ contents, tree.node? (top ++ [Settings.directoryName]) = some (.file contents)
  · obtain ⟨contents, hfile⟩ := hfile
    have hstop := FileTree.makeDirectories_of_file s.names_directory hname s.endsInDot_directory
      (hstart ▸ hfollow) htop hfile
    simp [hstop, hfile]
  · rw [not_exists] at hfile
    obtain ⟨made, hmade, hdirectory, hothers⟩ := FileTree.makeDirectories_below s.names_directory
      hname s.endsInDot_directory (hstart ▸ hfollow) htop hfile
    have hadds : tree.AddsDirectories made := by
      have h := tree.addsDirectories_makeDirectories s.directory
      rwa [hmade] at h
    -- what led to the project is still there, and from it the path leads on into what was made
    have hpath : made.resolve s.path =
        .ok (top ++ [Settings.directoryName] ++ [("config.md" : Text)]) := by
      refine resolve_path ?_ (hadds.keeps_directory top htop) hdirectory
      rw [FileTree.startOf_eq hadds.workingDirectory]
      exact FileTree.follow_of_directories hadds.keeps_directory hfollow
    have hwritten := FileTree.exists_writeFile_iff (.text Settings.template) hpath
    rw [hothers _ (by simp)] at hwritten
    simp only [hmade, Except.ok.injEq, exists_and_left, exists_eq_left', hwritten, ne_eq, hfile,
      not_false_eq_true, implies_true, true_and]

/-! ## What a setup leaves -/

/-- A setup that fails leaves new directories at most. -/
theorem addsDirectories_of_error {e : CommandError}
    (h : (s.execute color tree).result = .error e) :
    tree.AddsDirectories (s.execute color tree).tree := by
  have hcourse := s.course_execute color tree
  have hadds := tree.addsDirectories_makeDirectories s.directory
  generalize s.execute color tree = outcome at hcourse h
  cases hcourse with
  | refused hexists hforce => exact .refl tree
  | noDirectory hmay hstop =>
    rw [hstop] at hadds
    exact hadds
  | noFile hmay hmade hfile =>
    rw [hmade] at hadds
    exact hadds
  | written hmay hmade hfile => cases h

/-- Without force a setup fails where there is a settings file, and leaves the tree alone. -/
theorem execute_of_pathExists (hforce : s.force = false) (hexists : tree.pathExists s.path = true) :
    s.execute color tree = .failed tree (.settingsExist s.path) := by
  have hcourse := s.course_execute color tree
  generalize s.execute color tree = outcome at hcourse ⊢
  have hmust : ¬ s.MayWrite tree := by simp [MayWrite, hforce, hexists]
  cases hcourse with
  | refused hexists hforce => rfl
  | noDirectory hmay hstop => exact absurd hmay hmust
  | noFile hmay hmade hfile => exact absurd hmay hmust
  | written hmay hmade hfile => exact absurd hmay hmust

/-- A setup that succeeds writes one file, which its path leads to, and changes no other. -/
theorem exists_place_of_ok {code : Nat} (h : (s.execute color tree).result = .ok code) :
    ∃ place, (s.execute color tree).tree.resolve s.path = .ok place ∧
      (s.execute color tree).tree.node? place = some (.file (.text Settings.template)) ∧
      ∀ p, p ≠ place → tree.SameFileAt (s.execute color tree).tree p := by
  have hcourse := s.course_execute color tree
  have hadds := tree.addsDirectories_makeDirectories s.directory
  generalize s.execute color tree = outcome at hcourse h ⊢
  cases hcourse with
  | refused hexists hforce => cases h
  | noDirectory hmay hstop => cases h
  | noFile hmay hmade hfile => cases h
  | written hmay hmade hfile =>
    rw [hmade] at hadds
    obtain ⟨place, hresolve, hnode⟩ := FileTree.of_writeFile hfile
    refine ⟨place, hresolve, by rw [hnode, if_pos rfl], fun p hp contents => ?_⟩
    rw [hnode, if_neg hp]
    exact hadds.sameFileAt p contents

/-- Whatever the tree, a setup that fails leaves every file as it is, and without force it fails
where settings are there already. One that succeeds leaves a new settings file, every other file as
it is, and a project that loads with every setting at its default. In a project directory that is
there it succeeds unless it may not write, a file stands in place of the settings directory, or a
directory in place of the settings file. Writes to a tree do not fail half-way, so this says nothing
of a device that fails once the old settings are gone. -/
theorem setup_keeps_files_and_loads_defaults (s : Setup) (color : Bool) (tree : FileTree) :
    (∀ e, (s.execute color tree).result = .error e →
      ∀ place, tree.SameFileAt (s.execute color tree).tree place) ∧
    (s.force = false → tree.pathExists s.path = true →
      s.execute color tree = .failed tree (.settingsExist s.path)) ∧
    (∀ code, (s.execute color tree).result = .ok code →
      (s.execute color tree).tree.readText s.path = .ok Settings.template ∧
      (∃ place, (s.execute color tree).tree.resolve s.path = .ok place ∧
        ∀ p, p ≠ place → tree.SameFileAt (s.execute color tree).tree p) ∧
      Settings.load (s.execute color tree).tree s.project none =
        .ok { root := Path.join s.project "." }) ∧
    ∀ top, tree.directory? s.project = some top →
      ((s.execute color tree).result = .ok 0 ↔
        s.MayWrite tree ∧
        (∀ contents, tree.node? (top ++ [Settings.directoryName]) ≠ some (.file contents)) ∧
        tree.node? (top ++ [Settings.directoryName] ++ [("config.md" : Text)]) ≠
          some .directory) := by
  refine ⟨?_, execute_of_pathExists, ?_, ?_⟩
  · intro e h
    exact (addsDirectories_of_error h).sameFileAt
  · intro code h
    obtain ⟨place, hresolve, hnode, hothers⟩ := exists_place_of_ok h
    have hread := FileTree.readText_of_resolve hresolve hnode
    exact ⟨hread, ⟨place, hresolve, hothers⟩, Settings.load_of_template hread⟩
  · intro top hproject
    rw [result_eq_ok_iff, exists_written_iff hproject]

/-- A project in the working directory that has settings of its own. -/
def ownSettings : FileTree :=
  ((FileTree.fresh [("shop" : Text)]).put [("shop" : Text), Settings.directoryName] .directory).put
    [("shop" : Text), Settings.directoryName, ("config.md" : Text)] (.file (.text "mine"))

/-- Settings of its own stay as they are, unless they are to be overwritten. -/
theorem own_settings_kept_or_replaced :
    (({} : Setup).execute false ownSettings).tree.readText "./.concept-lint/config.md" =
        .ok ("mine" : Text) ∧
      (({} : Setup).execute false ownSettings).result =
        .error (.settingsExist "./.concept-lint/config.md") ∧
      (({ force := true } : Setup).execute false ownSettings).result = .ok 0 ∧
      Settings.load (({ force := true } : Setup).execute false ownSettings).tree "." none =
        .ok { root := "./." } := by
  have hexists : ownSettings.pathExists ({} : Setup).path = true := by decide
  have hproject : ownSettings.directory? "." = some [("shop" : Text)] := by decide
  have hdirectory :
      ownSettings.node? [("shop" : Text), Settings.directoryName] = some .directory := by rfl
  have hfile : ownSettings.node? [("shop" : Text), Settings.directoryName, ("config.md" : Text)] =
      some (.file (.text "mine")) := by rfl
  have hrefused :=
    (setup_keeps_files_and_loads_defaults {} false ownSettings).2.1 rfl hexists
  obtain ⟨-, -, hloads, hsucceeds⟩ :=
    setup_keeps_files_and_loads_defaults { force := true } false ownSettings
  have hok : (({ force := true } : Setup).execute false ownSettings).result = .ok 0 := by
    refine (hsucceeds _ hproject).mpr ⟨Or.inr rfl, ?_, ?_⟩
    · intro contents h
      cases hdirectory.symm.trans h
    · intro h
      cases hfile.symm.trans h
  refine ⟨?_, ?_, hok, (hloads 0 hok).2.2⟩
  · rw [hrefused]
    rfl
  · rw [hrefused]
    rfl

end Setup

end Concordance
