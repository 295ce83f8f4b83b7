/-!
# Kinds of syntax nodes

The syntax tree of a C++ text has a node for every construct and every terminal of the grammar.
Only the kinds that matter for declarations are told apart.

## Main definitions

* `Kind`: what a node stands for.
* `Kind.ofName`: the kind with a given name in the grammar.
* `Field`: the role of a node in its parent.
-/

namespace ClassEdit

/-- What a node of the syntax tree stands for. -/
inductive Kind where
  | classSpecifier
  | structSpecifier
  | unionSpecifier
  | enumSpecifier
  | namespaceDefinition
  | declaration
  | fieldDeclaration
  | functionDefinition
  | typeDefinition
  | aliasDeclaration
  | templateDeclaration
  | linkageSpecification
  | declarationList
  | preprocIf
  | preprocIfdef
  | preprocElse
  | preprocElif
  | preprocElifdef
  | baseClassClause
  | accessSpecifier
  | virtualWord
  | storageClassSpecifier
  | typeQualifier
  | refQualifier
  | noexceptSpecifier
  | throwSpecifier
  | virtualSpecifier
  | trailingReturnType
  | pureVirtualClause
  | attributeDeclaration
  | attributeSpecifier
  | declspecModifier
  | callModifier
  | attributeEntry
  | identifier
  | fieldIdentifier
  | typeIdentifier
  | qualifiedIdentifier
  | destructorName
  | operatorName
  | operatorCast
  | templateFunction
  | primitiveType
  | sizedTypeSpecifier
  | templateType
  | typeDescriptor
  | pointerDeclarator
  | abstractPointerDeclarator
  | referenceDeclarator
  | abstractReferenceDeclarator
  | arrayDeclarator
  | abstractArrayDeclarator
  | functionDeclarator
  | abstractFunctionDeclarator
  | parenthesizedDeclarator
  | abstractParenthesizedDeclarator
  | attributedDeclarator
  | variadicDeclarator
  | parameterDeclaration
  | optionalParameterDeclaration
  | variadicParameterDeclaration
  | numberLiteral
  | charLiteral
  | stringLiteral
  | rawStringLiteral
  | systemLibString
  | userDefinedLiteral
  | comment
  | error
  | unsignedWord
  | signedWord
  | longWord
  | shortWord
  | colon
  | comma
  | ellipsis
  | ampAmp
  /-- A construct or terminal that says nothing about declarations. -/
  | other
deriving DecidableEq, Repr, Inhabited

/-- The kind that the grammar calls `name`. -/
def Kind.ofName (name : String) : Kind :=
  match name with
  | "class_specifier" => .classSpecifier
  | "struct_specifier" => .structSpecifier
  | "union_specifier" => .unionSpecifier
  | "enum_specifier" => .enumSpecifier
  | "namespace_definition" => .namespaceDefinition
  | "declaration" => .declaration
  | "field_declaration" => .fieldDeclaration
  | "function_definition" => .functionDefinition
  | "type_definition" => .typeDefinition
  | "alias_declaration" => .aliasDeclaration
  | "template_declaration" => .templateDeclaration
  | "linkage_specification" => .linkageSpecification
  | "declaration_list" => .declarationList
  | "preproc_if" => .preprocIf
  | "preproc_ifdef" => .preprocIfdef
  | "preproc_else" => .preprocElse
  | "preproc_elif" => .preprocElif
  | "preproc_elifdef" => .preprocElifdef
  | "base_class_clause" => .baseClassClause
  | "access_specifier" => .accessSpecifier
  | "virtual" => .virtualWord
  | "storage_class_specifier" => .storageClassSpecifier
  | "type_qualifier" => .typeQualifier
  | "ref_qualifier" => .refQualifier
  | "noexcept" => .noexceptSpecifier
  | "throw_specifier" => .throwSpecifier
  | "virtual_specifier" => .virtualSpecifier
  | "trailing_return_type" => .trailingReturnType
  | "pure_virtual_clause" => .pureVirtualClause
  | "attribute_declaration" => .attributeDeclaration
  | "attribute_specifier" => .attributeSpecifier
  | "ms_declspec_modifier" => .declspecModifier
  | "ms_call_modifier" => .callModifier
  | "attribute" => .attributeEntry
  | "identifier" => .identifier
  | "field_identifier" => .fieldIdentifier
  | "type_identifier" => .typeIdentifier
  | "qualified_identifier" => .qualifiedIdentifier
  | "destructor_name" => .destructorName
  | "operator_name" => .operatorName
  | "operator_cast" => .operatorCast
  | "template_function" => .templateFunction
  | "primitive_type" => .primitiveType
  | "sized_type_specifier" => .sizedTypeSpecifier
  | "template_type" => .templateType
  | "type_descriptor" => .typeDescriptor
  | "pointer_declarator" => .pointerDeclarator
  | "abstract_pointer_declarator" => .abstractPointerDeclarator
  | "reference_declarator" => .referenceDeclarator
  | "abstract_reference_declarator" => .abstractReferenceDeclarator
  | "array_declarator" => .arrayDeclarator
  | "abstract_array_declarator" => .abstractArrayDeclarator
  | "function_declarator" => .functionDeclarator
  | "abstract_function_declarator" => .abstractFunctionDeclarator
  | "parenthesized_declarator" => .parenthesizedDeclarator
  | "abstract_parenthesized_declarator" => .abstractParenthesizedDeclarator
  | "attributed_declarator" => .attributedDeclarator
  | "variadic_declarator" => .variadicDeclarator
  | "parameter_declaration" => .parameterDeclaration
  | "optional_parameter_declaration" => .optionalParameterDeclaration
  | "variadic_parameter_declaration" => .variadicParameterDeclaration
  | "number_literal" => .numberLiteral
  | "char_literal" => .charLiteral
  | "string_literal" => .stringLiteral
  | "raw_string_literal" => .rawStringLiteral
  | "system_lib_string" => .systemLibString
  | "user_defined_literal" => .userDefinedLiteral
  | "comment" => .comment
  | "ERROR" => .error
  | "unsigned" => .unsignedWord
  | "signed" => .signedWord
  | "long" => .longWord
  | "short" => .shortWord
  | ":" => .colon
  | "," => .comma
  | "..." => .ellipsis
  | "&&" => .ampAmp
  | _ => .other

/-- The role of a node in its parent. -/
inductive Field where
  | type
  | name
  | body
  | declarator
  | parameters
  | defaultValue
  | scope
  | arguments
  | size
  /-- A role that says nothing about declarations. -/
  | other
deriving DecidableEq, Repr, Inhabited

/-- The role that the grammar calls `name`. -/
def Field.ofName (name : String) : Field :=
  match name with
  | "type" => .type
  | "name" => .name
  | "body" => .body
  | "declarator" => .declarator
  | "parameters" => .parameters
  | "default_value" => .defaultValue
  | "scope" => .scope
  | "arguments" => .arguments
  | "size" => .size
  | _ => .other

end ClassEdit
