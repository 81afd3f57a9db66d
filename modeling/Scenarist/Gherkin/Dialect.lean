import Scenarist.Keyword

/-!
# Dialects

The keywords of feature files in each language. The order of a list counts: a word that begins
another must not stand before it when the longer one is meant.
-/

namespace Scenarist

/-- The keywords of one language. -/
structure Dialect where
  name : String
  feature : List String
  background : List String
  rule : List String
  scenario : List String
  scenarioOutline : List String
  examples : List String
  given : List String
  when_ : List String
  then_ : List String
  and : List String
  but : List String
  deriving DecidableEq, Repr

namespace Dialect

/-- The keywords that steps of a kind begin with. -/
def stepWords (d : Dialect) : StepKeyword → List String
  | .given => d.given
  | .when_ => d.when_
  | .then_ => d.then_
  | .and => d.and
  | .but => d.but

def english : Dialect where
  name := "en"
  feature := ["Feature", "Business Need", "Ability"]
  background := ["Background"]
  rule := ["Rule"]
  scenario := ["Example", "Scenario"]
  scenarioOutline := ["Scenario Outline", "Scenario Template"]
  examples := ["Examples", "Scenarios"]
  given := ["* ", "Given "]
  when_ := ["* ", "When "]
  then_ := ["* ", "Then "]
  and := ["* ", "And "]
  but := ["* ", "But "]

def australian : Dialect where
  name := "en-au"
  feature := ["Pretty much"]
  background := ["First off"]
  rule := ["Rule"]
  scenario := ["Awww, look mate"]
  scenarioOutline := ["Reckon it's like"]
  examples := ["You'll wanna"]
  given := ["* ", "Y'know "]
  when_ := ["* ", "It's just unbelievable "]
  then_ := ["* ", "But at the end of the day I reckon "]
  and := ["* ", "Too right "]
  but := ["* ", "Yeah nah "]

def pirate : Dialect where
  name := "en-pirate"
  feature := ["Ahoy matey!"]
  background := ["Yo-ho-ho"]
  rule := ["Rule"]
  scenario := ["Heave to"]
  scenarioOutline := ["Shiver me timbers"]
  examples := ["Dead men tell no tales"]
  given := ["* ", "Gangway! "]
  when_ := ["* ", "Blimey! "]
  then_ := ["* ", "Let go and haul "]
  and := ["* ", "Aye "]
  but := ["* ", "Avast! "]

def portuguese : Dialect where
  name := "pt"
  feature := ["Funcionalidade", "Característica", "Caracteristica"]
  background := ["Contexto", "Cenário de Fundo", "Cenario de Fundo", "Fundo"]
  rule := ["Regra"]
  scenario := ["Exemplo", "Cenário", "Cenario"]
  scenarioOutline := [
    "Esquema do Cenário", "Esquema do Cenario", "Delineação do Cenário", "Delineacao do Cenario"]
  examples := ["Exemplos", "Cenários", "Cenarios"]
  given := ["* ", "Dado ", "Dada ", "Dados ", "Dadas "]
  when_ := ["* ", "Quando "]
  then_ := ["* ", "Então ", "Entao "]
  and := ["* ", "E "]
  but := ["* ", "Mas "]

def french : Dialect where
  name := "fr"
  feature := ["Fonctionnalité"]
  background := ["Contexte"]
  rule := ["Règle"]
  scenario := ["Exemple", "Scénario"]
  scenarioOutline := ["Plan du scénario", "Plan du Scénario"]
  examples := ["Exemples"]
  given := [
    "* ", "Soit ", "Sachant que ", "Sachant qu'", "Sachant ", "Etant donné que ",
    "Etant donné qu'", "Etant donné ", "Etant donnée ", "Etant donnés ", "Etant données ",
    "Étant donné que ", "Étant donné qu'", "Étant donné ", "Étant donnée ", "Étant donnés ",
    "Étant données "]
  when_ := ["* ", "Quand ", "Lorsque ", "Lorsqu'"]
  then_ := ["* ", "Alors ", "Donc "]
  and := ["* ", "Et que ", "Et qu'", "Et "]
  but := ["* ", "Mais que ", "Mais qu'", "Mais "]

def german : Dialect where
  name := "de"
  feature := ["Funktionalität", "Funktion"]
  background := ["Grundlage", "Hintergrund", "Voraussetzungen", "Vorbedingungen"]
  rule := ["Rule", "Regel"]
  scenario := ["Beispiel", "Szenario"]
  scenarioOutline := ["Szenariogrundriss", "Szenarien"]
  examples := ["Beispiele"]
  given := ["* ", "Angenommen ", "Gegeben sei ", "Gegeben seien "]
  when_ := ["* ", "Wenn "]
  then_ := ["* ", "Dann "]
  and := ["* ", "Und "]
  but := ["* ", "Aber "]

def spanish : Dialect where
  name := "es"
  feature := ["Característica", "Necesidad del negocio", "Requisito"]
  background := ["Antecedentes"]
  rule := ["Regla", "Regla de negocio"]
  scenario := ["Ejemplo", "Escenario"]
  scenarioOutline := ["Esquema del escenario"]
  examples := ["Ejemplos"]
  given := ["* ", "Dado ", "Dada ", "Dados ", "Dadas "]
  when_ := ["* ", "Cuando "]
  then_ := ["* ", "Entonces "]
  and := ["* ", "Y ", "E "]
  but := ["* ", "Pero "]

def japanese : Dialect where
  name := "ja"
  feature := ["フィーチャ", "機能"]
  background := ["背景"]
  rule := ["Rule"]
  scenario := ["シナリオ"]
  scenarioOutline := ["シナリオアウトライン", "シナリオテンプレート", "テンプレ", "シナリオテンプレ"]
  examples := ["例", "サンプル"]
  given := ["* ", "前提"]
  when_ := ["* ", "もし"]
  then_ := ["* ", "ならば"]
  and := ["* ", "かつ"]
  but := ["* ", "しかし", "但し", "ただし"]

def emoji : Dialect where
  name := "em"
  feature := ["📚"]
  background := ["💤"]
  rule := ["Rule"]
  scenario := ["🥒", "📕"]
  scenarioOutline := ["📖"]
  examples := ["📓"]
  given := ["* ", "😐"]
  when_ := ["* ", "🎬"]
  then_ := ["* ", "🙏"]
  and := ["* ", "😂"]
  but := ["* ", "😔"]

def norwegian : Dialect where
  name := "no"
  feature := ["Egenskap"]
  background := ["Bakgrunn"]
  rule := ["Regel"]
  scenario := ["Eksempel", "Scenario"]
  scenarioOutline := ["Scenariomal", "Abstrakt Scenario"]
  examples := ["Eksempler"]
  given := ["* ", "Gitt "]
  when_ := ["* ", "Når "]
  then_ := ["* ", "Så "]
  and := ["* ", "Og "]
  but := ["* ", "Men "]

def russian : Dialect where
  name := "ru"
  feature := ["Функция", "Функциональность", "Функционал", "Свойство"]
  background := ["Предыстория", "Контекст"]
  rule := ["Правило"]
  scenario := ["Пример", "Сценарий"]
  scenarioOutline := ["Структура сценария", "Шаблон сценария"]
  examples := ["Примеры"]
  given := ["* ", "Допустим ", "Дано ", "Пусть "]
  when_ := ["* ", "Когда ", "Если "]
  then_ := ["* ", "То ", "Затем ", "Тогда "]
  and := ["* ", "И ", "К тому же ", "Также "]
  but := ["* ", "Но ", "А ", "Иначе "]

def chinese : Dialect where
  name := "zh-CN"
  feature := ["功能"]
  background := ["背景"]
  rule := ["Rule"]
  scenario := ["场景", "剧本"]
  scenarioOutline := ["场景大纲", "剧本大纲"]
  examples := ["例子"]
  given := ["* ", "假如", "假设", "假定"]
  when_ := ["* ", "当"]
  then_ := ["* ", "那么"]
  and := ["* ", "而且", "并且", "同时"]
  but := ["* ", "但是"]

def formal : Dialect where
  name := "formal"
  feature := ["Section"]
  background := ["Context"]
  rule := ["Rule"]
  scenario := ["Proof", "Evidence"]
  scenarioOutline := ["Demonstration"]
  examples := ["Examples"]
  given := ["Given"]
  when_ := ["When"]
  then_ := ["Then"]
  and := ["*", "And"]
  but := ["But"]

/-- The languages that can be read. -/
def all : List Dialect :=
  [english, australian, pirate, portuguese, french, german, spanish,
    japanese, emoji, norwegian, russian, chinese, formal]

/-- The dialect of a name. -/
def ofName? (name : String) : Option Dialect := all.find? fun d => d.name = name

end Dialect

end Scenarist
