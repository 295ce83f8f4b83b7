import ClassEdit.Proofs.MemberOrder
import ClassEdit.Proofs.NameLookup
import ClassEdit.Proofs.OneLine

/-!
# Names as they are written

Most of what is read from a text is brought into its normal spelling. Names are not: their texts are
taken as they are, and a component of a namespace name is only trimmed. If all of these are on one
line, then so is every text in the types, parameters and names that are read from the tree, whatever
the layout of the rest is.

## Main definitions

* `Source.namesAt`: the texts that a construct gives to what is read from it.
* `Source.NamesOnOneLine`: all names in a tree are on one line.
* `Function.IsSpelledOnOneLine`: the names and types of a function are on one line.

## Main statements

* `CollectedFrom.onOneLine_typeName`: the type names that a text declares.
* `Context.declaresOnOneLine_readDeclared`: the type that a declaration gives to its name.
* `TranslationUnit.isSpelledOnOneLine_of_isPure`: the pure member functions of a unit.
-/

namespace ClassEdit

/-- The parts of a construct whose texts are taken as they are. -/
def Tree.verbatimParts (t : Tree) : List Tree :=
  match t.kind with
  | .identifier | .fieldIdentifier | .typeIdentifier | .primitiveType => [t]
  | .templateType => (t.child? .name).toList
  | .referenceDeclarator => t.children.head?.toList
  | .variadicDeclarator => t.namedChildren.head?.toList
  | _ => []

namespace Source

/-- The scopes that a construct opens as a namespace. -/
def namespacesAt (s : Source) (t : Tree) : List String :=
  if t.kind = .namespaceDefinition then
    ((t.child? .name).map fun name => openNamespaces (s.textOf name) []).getD []
  else []

/-- The texts that a construct gives, as they are, to what is read from it. -/
def namesAt (s : Source) (t : Tree) : List String :=
  t.verbatimParts.map s.textOf ++ s.namespacesAt t

/-- The names in the tree have no newlines. -/
def NamesOnOneLine (s : Source) (t : Tree) : Prop :=
  ∀ node ∈ t.nodes, ∀ name ∈ s.namesAt node, OnOneLine name

instance (s : Source) (t : Tree) : Decidable (s.NamesOnOneLine t) :=
  inferInstanceAs (Decidable (∀ node ∈ t.nodes, ∀ name ∈ s.namesAt node, OnOneLine name))

namespace NamesOnOneLine

variable {s : Source} {t c : Tree}

theorem of_mem_nodes (h : s.NamesOnOneLine t) (hc : c ∈ t.nodes) : s.NamesOnOneLine c :=
  fun node hnode => h node (Tree.nodes_trans hnode hc)

theorem of_mem_children (h : s.NamesOnOneLine t) (hc : c ∈ t.children) : s.NamesOnOneLine c :=
  h.of_mem_nodes (Tree.mem_nodes_of_mem_children hc)

theorem of_child? {field : Field} (h : s.NamesOnOneLine t) (hc : t.child? field = some c) :
    s.NamesOnOneLine c :=
  h.of_mem_nodes (Tree.mem_nodes_of_child? hc)

theorem onOneLine_textOf_part (h : s.NamesOnOneLine t) (hc : c ∈ t.verbatimParts) :
    OnOneLine (s.textOf c) :=
  h t (Tree.self_mem_nodes t) _ (List.mem_append_left _ (List.mem_map_of_mem hc))

theorem onOneLine_textOf (h : s.NamesOnOneLine t)
    (hkind : t.kind = .identifier ∨ t.kind = .fieldIdentifier ∨ t.kind = .typeIdentifier ∨
      t.kind = .primitiveType) : OnOneLine (s.textOf t) := by
  refine h.onOneLine_textOf_part ?_
  obtain hkind | hkind | hkind | hkind := hkind <;> simp [Tree.verbatimParts, hkind]

end NamesOnOneLine

end Source

/-! ## Types -/

namespace CType

variable {t : CType}

theorem textsOfAll_eq_flatMap (ts : List CType) : textsOfAll ts = ts.flatMap texts := by
  induction ts with
  | nil => rfl
  | cons t ts ih => rw [textsOfAll, ih, List.flatMap_cons]

theorem isOnOneLine_builtin {cv : Cv} {type : Builtin} (h : OnOneLine type.name) :
    (builtin cv type).IsOnOneLine := by
  intro text htext
  obtain rfl := List.mem_singleton.1 htext
  exact h

theorem isOnOneLine_spelled {cv : Cv} {text : String} (h : OnOneLine text) :
    (spelled cv text).IsOnOneLine := by
  intro other hother
  obtain rfl := List.mem_singleton.1 hother
  exact h

theorem isOnOneLine_qualify (extra : Cv) : (t.qualify extra).IsOnOneLine ↔ t.IsOnOneLine := by
  cases t <;> rfl

theorem IsOnOneLine.decayed (h : t.IsOnOneLine) : t.decayed.IsOnOneLine := by
  cases t with
  | array cv element size =>
    intro text htext
    exact h text (List.mem_append_left _ htext)
  | _ => exact h

end CType

theorem TemplateArgument.textsOfAll_eq_flatMap (as : List TemplateArgument) :
    textsOfAll as = as.flatMap texts := by
  induction as with
  | nil => rfl
  | cons a as ih => rw [textsOfAll, ih, List.flatMap_cons]

theorem Builtin.name_ofWord (word : String) : (ofWord word).name = word := by
  unfold ofWord
  split <;> rfl

/-- The declared type names have no newlines. -/
def Names.AreOnOneLine (names : Names) : Prop :=
  ∀ name, names.table.declares name = true → OnOneLine name

/-- The name and the type of the parameter have no newlines. -/
structure Parameter.IsOnOneLine (param : Parameter) : Prop where
  name : OnOneLine param.name
  type : param.type.IsOnOneLine

namespace Context

variable {ctx : Context} {t : Tree}

theorem onOneLine_of_mem_namedType {written : String} (hnames : ctx.names.AreOnOneLine)
    (hwritten : OnOneLine written) : ∀ text ∈ (ctx.namedType written).texts, OnOneLine text := by
  rw [TypeName.texts, List.forall_mem_cons]
  refine ⟨Text.onOneLine_dropStart hwritten, fun name hname => ?_⟩
  exact hnames name (Names.declares_of_resolve (Option.mem_toList.1 hname))

theorem onOneLine_spelling (ctx : Context) (t : Tree) : OnOneLine (ctx.spelling t) :=
  onOneLine_normalSpelling _

/-! ### Specifiers -/

theorem onOneLine_name_readSized (ctx : Context) (t : Tree) :
    OnOneLine (ctx.readSized t).name := by
  have hsigned : ∀ signed, OnOneLine (Builtin.short signed).name ∧
      OnOneLine (Builtin.int signed).name ∧ OnOneLine (Builtin.long signed).name ∧
      OnOneLine (Builtin.longLong signed).name := by decide
  simp only [readSized]
  split
  · split_ifs <;> decide
  · decide
  · decide
  · split_ifs
    · exact (hsigned _).1
    · split
      · exact (hsigned _).2.1
      · exact (hsigned _).2.2.1
      · exact (hsigned _).2.2.2

section Specifiers

variable {declared : Tree → CType}

theorem onOneLine_of_mem_readArguments
    (hdeclared : ∀ s, ctx.source.NamesOnOneLine s → (declared s).IsOnOneLine)
    (ht : ctx.source.NamesOnOneLine t) :
    ∀ text ∈ TemplateArgument.textsOfAll (ctx.readArguments declared t), OnOneLine text := by
  intro text htext
  rw [TemplateArgument.textsOfAll_eq_flatMap] at htext
  obtain ⟨argument, hargument, htext⟩ := List.mem_flatMap.1 htext
  rw [readArguments] at hargument
  split at hargument
  next list hlist =>
    obtain ⟨tree, htree, hread⟩ := List.mem_filterMap.1 hargument
    have htree := (ht.of_child? hlist).of_mem_nodes (Tree.mem_nodes_of_mem_namedChildren htree)
    split at hread
    · obtain rfl := Option.some.inj hread
      exact hdeclared tree htree text htext
    · cases hread
    · obtain rfl := Option.some.inj hread
      obtain rfl := List.mem_singleton.1 htext
      exact ctx.onOneLine_spelling tree
  next => cases hargument

variable (hnames : ctx.names.AreOnOneLine)
  (hdeclared : ∀ s, ctx.source.NamesOnOneLine s → (declared s).IsOnOneLine)
include hnames hdeclared

theorem isOnOneLine_readTemplate {qualifier : String} (hqualifier : OnOneLine qualifier)
    (ht : ctx.source.NamesOnOneLine t) (hkind : t.kind = .templateType) :
    (ctx.readTemplate declared qualifier t).IsOnOneLine := by
  have hname : OnOneLine (((t.child? .name).map ctx.text).getD "") := by
    refine onOneLine_map_getD fun name hname => ht.onOneLine_textOf_part ?_
    simpa [Tree.verbatimParts, hkind] using hname
  intro text htext
  obtain htext | htext := List.mem_append.1 htext
  · exact onOneLine_of_mem_namedType hnames (onOneLine_append.2 ⟨hqualifier, hname⟩) text htext
  · exact onOneLine_of_mem_readArguments hdeclared ht text htext

theorem isOnOneLine_readQualified (ht : ctx.source.NamesOnOneLine t) :
    (ctx.readQualified declared t).IsOnOneLine := by
  have hqualifier : OnOneLine (String.join (t.nameChain.dropLast.map fun part =>
      ((part.child? .scope).map ctx.spelling).getD "" ++ "::")) := by
    refine onOneLine_join fun text htext => ?_
    obtain ⟨part, -, rfl⟩ := List.mem_map.1 htext
    have hscope : OnOneLine (((part.child? .scope).map ctx.spelling).getD "") :=
      onOneLine_map_getD fun scope _ => ctx.onOneLine_spelling scope
    exact onOneLine_append.2 ⟨hscope, by decide⟩
  simp only [readQualified]
  split
  next last hlast =>
    have hlast := ht.of_mem_nodes (Tree.mem_nodes_of_mem_nameChain (List.mem_of_getLast? hlast))
    split
    next hkind =>
      have htext := hlast.onOneLine_textOf (.inr (.inr (.inl hkind)))
      exact onOneLine_of_mem_namedType hnames (onOneLine_append.2 ⟨hqualifier, htext⟩)
    next hkind => exact isOnOneLine_readTemplate hnames hdeclared hqualifier hlast hkind
    next => exact CType.isOnOneLine_spelled (ctx.onOneLine_spelling t)
  next => exact CType.isOnOneLine_spelled (ctx.onOneLine_spelling t)

theorem isOnOneLine_readSpecifier (ht : ctx.source.NamesOnOneLine t) :
    (ctx.readSpecifier declared t).IsOnOneLine := by
  have ht := ht.of_mem_nodes t.specifiedName_mem_nodes
  simp only [readSpecifier]
  split
  next hkind =>
    apply CType.isOnOneLine_builtin
    rw [Builtin.name_ofWord]
    exact Text.onOneLine_trimmed (ht.onOneLine_textOf (.inr (.inr (.inr hkind))))
  next => exact CType.isOnOneLine_builtin (ctx.onOneLine_name_readSized _)
  next hkind =>
    exact onOneLine_of_mem_namedType hnames (ht.onOneLine_textOf (.inr (.inr (.inl hkind))))
  next => exact isOnOneLine_readQualified hnames hdeclared ht
  next hkind => exact isOnOneLine_readTemplate hnames hdeclared (by decide) ht hkind
  next => exact CType.isOnOneLine_spelled (ctx.onOneLine_spelling _)

theorem isOnOneLine_readSpecified (ht : ctx.source.NamesOnOneLine t) :
    (ctx.readSpecified declared t).IsOnOneLine := by
  simp only [readSpecified]
  rw [CType.isOnOneLine_qualify]
  split
  next specifier hspecifier =>
    exact isOnOneLine_readSpecifier hnames hdeclared (ht.of_child? hspecifier)
  next => exact CType.isOnOneLine_builtin (by decide)

end Specifiers

/-! ### Declarators -/

theorem isOnOneLine_wrapLayer {type : CType} (htype : type.IsOnOneLine) (layer : Tree) :
    (ctx.wrapLayer type layer).IsOnOneLine := by
  rw [wrapLayer]
  split
  · exact htype
  · exact htype
  · split_ifs <;> exact htype
  · split_ifs <;> exact htype
  · exact htype

theorem isOnOneLine_foldl_wrapLayer {type : CType} (htype : type.IsOnOneLine)
    (layers : List Tree) : (layers.foldl ctx.wrapLayer type).IsOnOneLine := by
  induction layers generalizing type with
  | nil => exact htype
  | cons layer layers ih => exact ih (isOnOneLine_wrapLayer htype layer)

/-- The declared type and the name have no newlines. -/
structure DeclaresOnOneLine (ctx : Context) (declared : CType × Option Tree) : Prop where
  type : declared.1.IsOnOneLine
  name : ∀ name ∈ declared.2, OnOneLine (ctx.text name)

theorem declaresOnOneLine_applyLayers {parameters : Tree → List Parameter × Bool}
    (hparameters : ∀ s, ctx.source.NamesOnOneLine s →
      ∀ param ∈ (parameters s).1, param.IsOnOneLine)
    {layers : List Tree} (hlayers : ∀ layer ∈ layers, ctx.source.NamesOnOneLine layer)
    {type : CType} (htype : type.IsOnOneLine) :
    ctx.DeclaresOnOneLine (ctx.applyLayers parameters layers type) := by
  induction layers generalizing type with
  | nil => exact ⟨htype, by simp [applyLayers]⟩
  | cons layer inner ih =>
    obtain ⟨hlayer, hinner⟩ := List.forall_mem_cons.1 hlayers
    have hnamed : layer.kind = .identifier ∨ layer.kind = .fieldIdentifier ∨
        layer.kind = .typeIdentifier ∨ layer.kind = .primitiveType →
        ctx.DeclaresOnOneLine (type, some layer) := fun hkind =>
      ⟨htype, fun name hname => Option.some.inj hname ▸ hlayer.onOneLine_textOf hkind⟩
    have harray :
        (CType.array .plain type ((layer.child? .size).map ctx.spelling)).IsOnOneLine := by
      intro text htext
      obtain htext | htext := List.mem_append.1 htext
      · exact htype text htext
      · obtain ⟨size, -, rfl⟩ := Option.map_eq_some_iff.1 (Option.mem_toList.1 htext)
        exact ctx.onOneLine_spelling size
    have hfunction : (CType.function .plain type ((parameters layer).1.map (·.type))
        (parameters layer).2).IsOnOneLine := by
      intro text htext
      obtain htext | htext := List.mem_append.1 htext
      · exact htype text htext
      · rw [CType.textsOfAll_eq_flatMap, List.flatMap_map] at htext
        obtain ⟨param, hparam, htext⟩ := List.mem_flatMap.1 htext
        exact (hparameters layer hlayer param hparam).type text htext
    -- A layer ends the declarator with a name, puts a type around what was read, or is passed over.
    rw [applyLayers]
    split
    case h_1 hkind => exact hnamed (.inl hkind)
    case h_2 hkind => exact hnamed (.inr (.inl hkind))
    case h_3 hkind => exact hnamed (.inr (.inr (.inl hkind)))
    case h_4 | h_5 | h_6 | h_7 => exact ih hinner (isOnOneLine_wrapLayer htype layer)
    case h_8 | h_9 => exact ih hinner harray
    case h_10 | h_11 => exact ih hinner hfunction
    case h_12 hkind =>
      refine ⟨htype, fun name hname => hlayer.onOneLine_textOf_part ?_⟩
      simpa [Tree.verbatimParts, hkind] using hname
    case h_13 | h_14 | h_15 => exact ih hinner htype
    case h_16 => exact ⟨htype, by simp⟩

/-! ### Parameters -/

theorem isOnOneLine_readParameter? {declared : Tree → CType × Option Tree}
    (hdeclared : ctx.DeclaresOnOneLine (declared t)) {param : Parameter}
    (h : ctx.readParameter? declared t = some param) : param.IsOnOneLine := by
  have hname : OnOneLine (((declared t).2.map ctx.text).getD "") :=
    onOneLine_map_getD hdeclared.name
  simp only [readParameter?] at h
  split at h
  · cases h
  · obtain rfl := Option.some.inj h
    exact ⟨hname, hdeclared.type.decayed⟩

theorem isOnOneLine_readPack (ht : ctx.source.NamesOnOneLine t) : (ctx.readPack t).IsOnOneLine := by
  have htype : OnOneLine (((t.child? .type).map ctx.spelling).getD "") :=
    onOneLine_map_getD fun type _ => ctx.onOneLine_spelling type
  have hspelled : ∀ sigil, OnOneLine sigil → OnOneLine
      (if sigil.isEmpty then ((t.child? .type).map ctx.spelling).getD "" ++ "..."
      else ((t.child? .type).map ctx.spelling).getD "" ++ " " ++ sigil ++ "...") := by
    intro sigil hsigil
    split_ifs
    · exact onOneLine_append.2 ⟨htype, by decide⟩
    · simp only [onOneLine_append]
      exact ⟨⟨⟨htype, by decide⟩, hsigil⟩, by decide⟩
  constructor
  · refine onOneLine_map_getD fun name hname => ?_
    obtain ⟨declarator, hdeclarator, hname⟩ := Option.bind_eq_some_iff.1 hname
    obtain ⟨hmem, hkind⟩ := Tree.declaredName?_eq_some hname
    exact ((ht.of_child? hdeclarator).of_mem_nodes hmem).onOneLine_textOf hkind
  · refine CType.isOnOneLine_spelled (hspelled _ ?_)
    split
    next layer hlayer =>
      split_ifs with hkind
      · cases hfirst : layer.children.head? with
        | none => exact (by decide : OnOneLine "&")
        | some first =>
          refine (ht.of_child? hlayer).onOneLine_textOf_part ?_
          simp [Tree.verbatimParts, hkind, hfirst]
      · exact onOneLine_empty
    next => exact onOneLine_empty

theorem isOnOneLine_of_mem_readParameters {declared : Tree → CType × Option Tree}
    (hdeclared : ∀ s, ctx.source.NamesOnOneLine s → ctx.DeclaresOnOneLine (declared s))
    (ht : ctx.source.NamesOnOneLine t) :
    ∀ param ∈ (ctx.readParameters declared t).1, param.IsOnOneLine := by
  intro param hparam
  rw [readParameters] at hparam
  split at hparam
  next list hlist =>
    obtain ⟨tree, htree, hread⟩ := List.mem_filterMap.1 hparam
    have htree := (ht.of_child? hlist).of_mem_children htree
    split at hread
    · exact isOnOneLine_readParameter? (hdeclared tree htree) hread
    · exact isOnOneLine_readParameter? (hdeclared tree htree) hread
    · obtain rfl := Option.some.inj hread
      exact isOnOneLine_readPack htree
    · cases hread
  next => cases hparam

/-! ### Declarations -/

section Declarations

variable (hnames : ctx.names.AreOnOneLine)
include hnames

theorem declaresOnOneLine_readNested (depth : Nat) (ht : ctx.source.NamesOnOneLine t) :
    ctx.DeclaresOnOneLine (ctx.readNested depth t) := by
  induction depth generalizing t with
  | zero => exact ⟨CType.isOnOneLine_builtin (by decide), by simp [readNested]⟩
  | succ depth ih =>
    -- Parameters and template arguments are declarations in turn, read with less depth.
    rw [readNested]
    refine declaresOnOneLine_applyLayers
      (fun s hs => isOnOneLine_of_mem_readParameters (fun _ => ih) hs)
      (fun layer hlayer => ht.of_mem_nodes (Tree.mem_nodes_of_mem_declaratorSpine hlayer)) ?_
    exact isOnOneLine_readSpecified hnames (fun s hs => (ih hs).type) ht

theorem declaresOnOneLine_readDeclared (ht : ctx.source.NamesOnOneLine t) :
    ctx.DeclaresOnOneLine (ctx.readDeclared t) :=
  declaresOnOneLine_readNested hnames _ ht

theorem isOnOneLine_readType (ht : ctx.source.NamesOnOneLine t) : (ctx.readType t).IsOnOneLine :=
  (declaresOnOneLine_readDeclared hnames ht).type

theorem isOnOneLine_conversionTarget (ht : ctx.source.NamesOnOneLine t) :
    (ctx.conversionTarget t).IsOnOneLine := by
  simp only [conversionTarget]
  apply isOnOneLine_foldl_wrapLayer
  rw [CType.isOnOneLine_qualify]
  split
  next specifier hspecifier =>
    exact isOnOneLine_readSpecifier hnames (fun _ => isOnOneLine_readType hnames)
      (ht.of_child? hspecifier)
  next => exact CType.isOnOneLine_builtin (by decide)

theorem onOneLine_functionName (ht : ctx.source.NamesOnOneLine t) :
    OnOneLine (ctx.functionName t).1 := by
  rw [functionName]
  split <;> dsimp only
  · have htarget := isOnOneLine_conversionTarget hnames ht
    exact onOneLine_append.2
      ⟨by decide, keptBySpelling_onOneLine.spellAround _ _ htarget onOneLine_empty⟩
  · exact Text.onOneLine_replaced (ctx.onOneLine_spelling t) onOneLine_empty
  · exact onOneLine_operatorSpelling _
  · exact ctx.onOneLine_spelling t

theorem isOnOneLine_readReturn {parts : FunctionDeclarator}
    (ht : ctx.source.NamesOnOneLine t) (hfunction : ctx.source.NamesOnOneLine parts.function)
    (kind : MethodKind) : (ctx.readReturn kind t parts).1.IsOnOneLine := by
  have hvoid : (CType.builtin .plain .void).IsOnOneLine := CType.isOnOneLine_builtin (by decide)
  simp only [readReturn]
  split
  · exact hvoid
  · exact hvoid
  next _ descriptor _ _ htrailing =>
    obtain ⟨trailing, hlast, hhead⟩ := Option.bind_eq_some_iff.1 htrailing
    have hmem := List.mem_of_mem_filter (List.mem_of_getLast? hlast)
    exact isOnOneLine_readType hnames ((hfunction.of_mem_children hmem).of_mem_nodes
      (Tree.mem_nodes_of_mem_namedChildren (List.mem_of_head? hhead)))
  next specifier _ hspecifier _ =>
    apply isOnOneLine_foldl_wrapLayer
    rw [CType.isOnOneLine_qualify]
    exact isOnOneLine_readSpecifier hnames (fun _ => isOnOneLine_readType hnames)
      (ht.of_child? hspecifier)

end Declarations

end Context

/-! ## Functions -/

/-- The name of the function and its types and parameters have no newlines. -/
structure Function.IsSpelledOnOneLine (f : Function) : Prop where
  name : OnOneLine f.qualifiedName
  returnType : f.returnType.IsOnOneLine
  params : ∀ param ∈ f.params, param.IsOnOneLine

theorem Context.isSpelledOnOneLine_readFunction? {ctx : Context} {t declarator : Tree}
    {qualifier : String} {signature : Signature} (hnames : ctx.names.AreOnOneLine)
    (ht : ctx.source.NamesOnOneLine t) (hdeclarator : ctx.source.NamesOnOneLine declarator)
    (hqualifier : OnOneLine qualifier)
    (h : ctx.readFunction? t declarator qualifier = some signature) :
    signature.function.IsSpelledOnOneLine := by
  obtain ⟨parts, hparts, h⟩ := Option.bind_eq_some_iff.1 h
  obtain rfl := Option.some.inj h
  obtain ⟨hfunction, hname, -⟩ := FunctionDeclarator.mem_nodes_of_ofTree? hparts
  have hfunction := hdeclarator.of_mem_nodes hfunction
  have hname := onOneLine_functionName hnames (hdeclarator.of_mem_nodes hname)
  exact ⟨onOneLine_qualify hqualifier hname, isOnOneLine_readReturn hnames ht hfunction _,
    isOnOneLine_of_mem_readParameters (fun _ => declaresOnOneLine_readDeclared hnames) hfunction⟩

theorem isSpelledOnOneLine_readMethod? {ctx : Context} {id : RecordId} {r : RecordSource}
    {access : Access} {t declarator : Tree} {method : Method} (hnames : ctx.names.AreOnOneLine)
    (ht : ctx.source.NamesOnOneLine t) (hdeclarator : ctx.source.NamesOnOneLine declarator)
    (hr : OnOneLine r.qualifiedName)
    (h : readMethod? ctx id r access t declarator = some method) :
    method.toFunction.IsSpelledOnOneLine := by
  obtain ⟨signature, hsignature, h⟩ := Option.bind_eq_some_iff.1 h
  simp only [Option.ite_none_left_eq_some, Option.some.injEq] at h
  obtain ⟨-, rfl⟩ := h
  exact Context.isSpelledOnOneLine_readFunction? hnames ht hdeclarator hr hsignature

/-! ## Declared names -/

theorem openNamespaces_eq_append (written : String) (scope : Scope) :
    openNamespaces written scope = openNamespaces written [] ++ scope := by
  have hfold : ∀ (parts : List (List Char)) (inner outer : Scope),
      parts.foldl (fun scope part => String.ofList part :: scope) (inner ++ outer) =
        parts.foldl (fun scope part => String.ofList part :: scope) inner ++ outer := by
    intro parts
    induction parts with
    | nil => exact fun _ _ => rfl
    | cons part parts ih => exact fun inner outer => ih (String.ofList part :: inner) outer
  exact hfold _ [] scope

theorem onOneLine_scopeName {scope : Scope} (h : ∀ name ∈ scope, OnOneLine name) :
    OnOneLine scope.name := by
  rw [Scope.name, onOneLine_intercalate (by decide)]
  simpa using h

variable {source : Source} {scope : Scope} {t : Tree}

theorem OpensScope.onOneLine {inner : Scope} (h : OpensScope source scope t inner)
    (ht : source.NamesOnOneLine t) (hscope : ∀ name ∈ scope, OnOneLine name) :
    ∀ name ∈ inner, OnOneLine name := by
  cases h with
  | same => exact hscope
  | record hname hkind =>
    have htext := (ht.of_mem_nodes hname).onOneLine_textOf (.inr (.inr (.inl hkind)))
    exact List.forall_mem_cons.2 ⟨htext, hscope⟩
  | named hkind hname =>
    rw [openNamespaces_eq_append, List.forall_mem_append]
    refine ⟨fun name hopened => ?_, hscope⟩
    refine ht t (Tree.self_mem_nodes t) name (List.mem_append_right _ ?_)
    simpa [Source.namespacesAt, hkind, hname] using hopened
  | unnamed => exact List.forall_mem_cons.2 ⟨by decide, hscope⟩

/-- The type names that a text declares are on one line if the names in it are. -/
theorem CollectedFrom.onOneLine_typeName {inRecord : Bool} {item : Item}
    (h : CollectedFrom source scope inRecord item t) (ht : source.NamesOnOneLine t)
    (hscope : ∀ name ∈ scope, OnOneLine name) : ∀ name ∈ item.typeName?, OnOneLine name := by
  induction t using Tree.induction generalizing scope inRecord with
  | step root children ih =>
    obtain hdeclared | ⟨inner, inRecord, hinner, c, hc, h⟩ := h.declaredAt_or_inside
    · have hqualified : ∀ {name : Tree}, OnOneLine (source.textOf name) →
          OnOneLine (qualify scope.name (source.textOf name)) :=
        onOneLine_qualify (onOneLine_scopeName hscope)
      cases hdeclared with
      | type hname hkind =>
        rintro _ ⟨⟩
        exact hqualified ((ht.of_mem_nodes hname).onOneLine_textOf (.inr (.inr hkind)))
      | record hname hkind hbody =>
        rintro _ ⟨⟩
        exact hqualified ((ht.of_mem_nodes hname).onOneLine_textOf (.inr (.inr (.inl hkind))))
      | function declarator =>
        rintro _ ⟨⟩
    · exact ih c hc h (ht.of_mem_children hc) (hinner.onOneLine ht hscope)

/-! ## Member functions -/

variable {document : Document} {tree : Tree}

theorem areOnOneLine_memberNames (h : (Source.ofTree document tree).NamesOnOneLine tree) :
    (memberNames document tree).AreOnOneLine := by
  intro name hname
  obtain ⟨item, hitem, heq⟩ := (declares_typeTable _ name).1 hname
  have hcollected : CollectedFrom (Source.ofTree document tree) [] false item tree := .inr hitem
  exact hcollected.onOneLine_typeName h (by simp) name heq

theorem onOneLine_qualifiedName (h : (Source.ofTree document tree).NamesOnOneLine tree)
    {definition : RecordSource} (hdefinition : definition ∈ definitions document tree) :
    OnOneLine definition.qualifiedName := by
  obtain ⟨item, hitem, heq⟩ := List.mem_filterMap.1 hdefinition
  cases item with
  | record r =>
    obtain rfl := Option.some.inj heq
    have hcollected : CollectedFrom (Source.ofTree document tree) [] false (.record r) tree :=
      .inr hitem
    exact hcollected.onOneLine_typeName h (by simp) _ rfl
  | _ => cases heq

/-- The pure member functions of a class are spelled on one line if the names of the text are on one
line, and so is the name of the class. -/
theorem TranslationUnit.isSpelledOnOneLine_of_isPure {hasErrors : Bool} {id : RecordId}
    {record : Record} (h : (Source.ofTree document tree).NamesOnOneLine tree)
    (hrecord : (ofTree document tree hasErrors).records[id]? = some record) :
    OnOneLine record.qualifiedName ∧
      ∀ method ∈ record.pureMethods, method.toFunction.IsSpelledOnOneLine := by
  obtain ⟨definition, isDynamic, hdefinition, rfl⟩ := exists_definition hrecord
  have hdefinition := List.mem_of_getElem? hdefinition
  have hqualified := onOneLine_qualifiedName h hdefinition
  obtain ⟨htree, hbody⟩ := mem_nodes_of_mem_definitions hdefinition
  have hbody := (h.of_mem_nodes htree).of_mem_children hbody
  refine ⟨hqualified, fun method hmethod => ?_⟩
  obtain ⟨hmem, hpure⟩ := List.mem_filter.1 hmethod
  obtain hmem | hmem := List.mem_append.1 hmem
  · have hmem : method ∈ definition.readMethods (Source.ofTree document tree)
        (memberNames document tree) id := hmem
    rw [RecordSource.readMethods_eq_filterMap] at hmem
    obtain ⟨d, hd, hread⟩ := List.mem_filterMap.1 hmem
    obtain ⟨⟨after, hrow⟩, hdeclarator⟩ := Tree.mem_bodyDeclarators_iff.1 hd
    have hdeclaration := hbody.of_mem_nodes
      (Tree.mem_nodes_of_mem_flatChildren (s := d.declaration) (by simp [hrow]))
    have hdeclarator := hdeclaration.of_mem_nodes
      (d.declaration.memberDeclarators_sublist_nodes.subset hdeclarator)
    refine isSpelledOnOneLine_readMethod? ?_ ?_ ?_ hqualified hread
    · exact areOnOneLine_memberNames h
    · exact hdeclaration
    · exact hdeclarator
  · -- What the language declares is not pure.
    split_ifs at hmem
    · obtain ⟨_, _, _, _, -, rfl⟩ := Record.exists_of_mem_implicitMethods hmem
      cases hpure
    · cases hmem

end ClassEdit
