import Mathlib.Data.List.Infix

/-!
# The text of a configuration

The template of a configuration, with the sections of its child configurations put behind it, is
rendered with the variables of the cloud region, the node, the configuration and the children
(`get_node_config` and `render_template`, `services/sidecar.py`; `_decode_env_rows`,
`services/cloudregion.py`). Rendering is `string.Template.safe_substitute`, read here character by
character (`Mode`).

A value of an environment is any `V`, with `str` of it, and the cipher of the secret rows is
a parameter (`Values`).
-/

namespace NodeMgmt

abbrev Text := List Char

/-- `str` of a value of an `env_config`, and `AESCryptor().decode`, none where it raises. -/
structure Values (V : Type*) where
  str : V → Text
  decode : Text → Option Text

abbrev Variables := List (Text × Text)

def Variables.update (vars updates : Variables) : Variables := updates.reverse ++ vars

/-! ### `string.Template` -/

def isIdStart (c : Char) : Bool := c = '_' ∨ ('a' ≤ c ∧ c ≤ 'z') ∨ ('A' ≤ c ∧ c ≤ 'Z')

def isIdChar (c : Char) : Bool := isIdStart c ∨ ('0' ≤ c ∧ c ≤ '9')

/-- What has been read since the last dollar: the dollar, it and an identifier, or it, a brace and
a part of an identifier. -/
inductive Mode
  | plain
  | dollar
  | named (identifier : Text)
  | braced (identifier : Text)
deriving DecidableEq, Repr

def substitute (vars : Variables) (identifier placeholder : Text) : Text :=
  (vars.lookup identifier).getD placeholder

def restart (c : Char) : Text × Mode := if c = '$' then ([], .dollar) else ([c], .plain)

def Mode.read (vars : Variables) (mode : Mode) (c : Char) : Text × Mode :=
  match mode with
  | .plain => restart c
  | .dollar =>
    if c = '$' then (['$'], .plain)
    else if c = '\x7b' then ([], .braced [])
    else if isIdStart c then ([], .named [c])
    else ('$' :: (restart c).1, (restart c).2)
  | .named identifier =>
    if isIdChar c then ([], .named (identifier ++ [c]))
    else
      (substitute vars identifier ('$' :: identifier) ++ (restart c).1, (restart c).2)
  | .braced identifier =>
    if (if identifier = [] then isIdStart c else isIdChar c) then
      ([], .braced (identifier ++ [c]))
    else if c = '\x7d' ∧ identifier ≠ [] then
      (substitute vars identifier ('$' :: '\x7b' :: identifier ++ ['\x7d']), .plain)
    else ('$' :: '\x7b' :: identifier ++ (restart c).1, (restart c).2)

def Mode.close (vars : Variables) : Mode → Text
  | .plain => []
  | .dollar => ['$']
  | .named identifier => substitute vars identifier ('$' :: identifier)
  | .braced identifier => '$' :: '\x7b' :: identifier

def substituteFrom (vars : Variables) : Mode → Text → Text
  | mode, [] => mode.close vars
  | mode, c :: cs =>
    (mode.read vars c).1 ++ substituteFrom vars (mode.read vars c).2 cs

/-- `Template(template).safe_substitute(variables)`. -/
def safeSubstitute (vars : Variables) (template : Text) : Text :=
  substituteFrom vars .plain template

/-! ### `render_template` -/

/-- `"password" in k.lower()`. -/
def isPassword (key : Text) : Bool := "password".toList <:+: key.map Char.toLower

/-- `template_str.replace("node.", "node__")`. -/
def replaceNode : Text → Text
  | 'n' :: 'o' :: 'd' :: 'e' :: '.' :: cs => "node__".toList ++ replaceNode cs
  | c :: cs => c :: replaceNode cs
  | [] => []

def renderTemplate (template : Text) (vars : Variables) : Text :=
  safeSubstitute (vars.filter fun kv => !isPassword kv.1) (replaceNode template)

/-! ### The rows -/

variable {V : Type*}

structure Node where
  id : Text
  name : Text
  ip : Text
  operatingSystem : Text
  collectorConfigurationDirectory : Text
  cloudRegionId : ℤ
deriving DecidableEq, Repr

structure Configuration (V : Type*) where
  id : Text
  name : Text
  configTemplate : Text
  collectorId : Text
  envConfig : List (Text × V)
deriving DecidableEq, Repr

structure ChildConfig (V : Type*) where
  collectType : Text
  configType : Text
  content : Text
  envConfig : List (Text × V)
  configSection : Text
deriving DecidableEq, Repr

/-- A row of `SidecarEnv`, as it is cached. -/
structure EnvRow where
  key : Text
  value : Text
  type : Text
deriving DecidableEq, Repr

/-- `config_section` of a collector: the headers of the sections, by their keys. -/
abbrev SectionHeaders := List (Text × Text)

structure ConfigurationData (V : Type*) where
  id : Text
  collectorId : Text
  name : Text
  template : Text
  envConfig : List (Text × V)
deriving DecidableEq, Repr

/-! ### The variables -/

/-- The values of an `env_config`, as they are rendered. -/
def Values.envVariables (values : Values V) (envConfig : List (Text × V)) : Variables :=
  envConfig.map fun kv => (kv.1, values.str kv.2)

def Values.decodeEnvRows (values : Values V) (envRows : List EnvRow) : Variables :=
  envRows.map fun row =>
    (row.key, if row.type = "secret".toList then (values.decode row.value).getD row.value
      else row.value)

def nodeDict (node : Node) : Variables :=
  [("node__id".toList, node.id),
    ("node__cloud_region".toList, (toString node.cloudRegionId).toList),
    ("node__name".toList, node.name),
    ("node__ip".toList, node.ip),
    ("node__ip_filter".toList, node.ip.map fun c => if c = '.' ∨ c = '*' then '-' else c),
    ("node__operating_system".toList, node.operatingSystem),
    ("node__collector_configuration_directory".toList, node.collectorConfigurationDirectory),
    ("PACKETBEAT_DEVICE".toList,
      if node.operatingSystem = "windows".toList then "0".toList else "any".toList)]

def Values.getVariables (values : Values V) (node : Node) (envRows : List EnvRow) : Variables :=
  Variables.update (Variables.update [] (values.decodeEnvRows envRows)) (nodeDict node)

def Values.collectChildRenderVariables (values : Values V) (childConfigs : List (ChildConfig V)) :
    Variables :=
  childConfigs.flatMap fun childConfig =>
    (values.envVariables childConfig.envConfig).filter fun kv => ¬"__".toList <:+: kv.1

/-! ### `get_node_config` -/

def Values.childText (values : Values V) (childConfig : ChildConfig V) : Text :=
  "\n# ".toList ++ childConfig.collectType ++ " - ".toList ++ childConfig.configType ++
    "\n".toList ++
      renderTemplate childConfig.content
        (Variables.update [] (values.envVariables childConfig.envConfig))

/-- `merged_template`. Where there are sections, a child of another section is left out. -/
def Values.mergedTemplate (values : Values V) (configTemplate : Text)
    (sectionHeaders : SectionHeaders) (childConfigs : List (ChildConfig V)) : Text :=
  if childConfigs ≠ [] ∧ sectionHeaders ≠ [] then
    configTemplate ++
      (sectionHeaders.flatMap fun (sectionKey, header) =>
        match childConfigs.filter fun c => c.configSection ≠ [] ∧ c.configSection = sectionKey with
        | [] => []
        | configs => header ++ configs.flatMap values.childText) ++
      (childConfigs.filter fun c => c.configSection = []).flatMap values.childText
  else configTemplate ++ childConfigs.flatMap values.childText

/-- What a request reads of the tables, but the rows of the environment. -/
structure Inputs (V : Type*) where
  node : Node
  configuration : Configuration V
  sectionHeaders : SectionHeaders
  childConfigs : List (ChildConfig V)
deriving DecidableEq, Repr

/-- `configuration_data` of what was read. -/
def Values.configurationData (values : Values V) (inputs : Inputs V) (envRows : List EnvRow) :
    ConfigurationData V :=
  let configuration := inputs.configuration
  let vars := values.getVariables inputs.node envRows
  let vars := vars.update (values.envVariables configuration.envConfig)
  let vars := vars.update (values.collectChildRenderVariables inputs.childConfigs)
  { id := configuration.id
    collectorId := configuration.collectorId
    name := configuration.name
    template := renderTemplate
      (values.mergedTemplate configuration.configTemplate inputs.sectionHeaders
        inputs.childConfigs) vars
    envConfig := configuration.envConfig }

end NodeMgmt
